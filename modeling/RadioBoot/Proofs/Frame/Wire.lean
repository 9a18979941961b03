import RadioBoot.Proofs.Frame.Travel

/-!
# Frames and the bytes on the wire

The bytes of a frame say all of it that counts, and bytes that can be read say just one frame: the
length byte and what it declares, with zeros behind (`ofBytes?_eq_some_iff`, `buffer_zeroed`).  So
reading undoes writing wherever the length byte is right (`ofBytes?_bytes`), and to put a frame
together from an opcode and its parameters is to read it from its bytes (`ofOpcode?_eq_ofBytes?`).
A length byte that declares more than there is room for cannot be read, but a frame may have one; it
travels with all of its room (`bytes_of_opcode`).
-/

namespace RadioBoot.Frame

variable {f : Frame} {len opcode : UInt8} {rest params : List UInt8}

/-! ## Reading -/

/-- What is read is what the length byte declares, which must be there and fit. -/
theorem ofBytes?_eq_some_iff {bs : List UInt8} :
    ofBytes? bs = some f ↔ ∃ len rest, bs = len :: rest ∧
      (len.toNat ≤ maxPayload ∧ len.toNat ≤ rest.length) ∧
      f = zeroed 0 len (rest.take len.toNat) := by
  cases bs with
  | nil => simp [ofBytes?]
  | cons len rest =>
      rw [ofBytes?]
      constructor
      · intro h
        split at h
        · rename_i complete
          exact ⟨len, rest, rfl, complete, (Option.some.inj h).symm⟩
        · exact absurd h (by simp)
      · rintro ⟨_, _, ⟨⟩, complete, rfl⟩
        exact if_pos complete

theorem exists_ofBytes?_iff {bs : List UInt8} :
    (∃ f, ofBytes? bs = some f) ↔ ∃ len rest, bs = len :: rest ∧
      len.toNat ≤ maxPayload ∧ len.toNat ≤ rest.length := by
  simp only [ofBytes?_eq_some_iff]
  constructor
  · rintro ⟨f, len, rest, hbs, complete, -⟩
    exact ⟨len, rest, hbs, complete⟩
  · rintro ⟨len, rest, hbs, complete⟩
    exact ⟨_, len, rest, hbs, complete, rfl⟩

/-- Behind a payload that fits there are zeros. -/
theorem buffer_zeroed (status len : UInt8) {payload : List UInt8}
    (fits : payload.length ≤ maxPayload) :
    (zeroed status len payload).buffer =
      len :: payload ++ List.replicate (maxPayload - payload.length) 0 := by
  have hroom : overlay payload (.replicate maxPayload 0) =
      payload ++ List.replicate (maxPayload - payload.length) 0 := by
    rw [overlay, List.length_replicate, List.take_of_length_le fits, List.drop_replicate]
  exact congrArg (len :: ·) hroom

/-- A frame that has been read holds the bytes that it was read from, and nothing else. -/
theorem buffer_of_ofBytes? (h : ofBytes? (len :: rest) = some f) :
    f.bytes = (len :: rest).take (len.toNat + 1) ∧
      f.buffer = f.bytes ++ List.replicate (maxPayload - len.toNat) 0 := by
  obtain ⟨_, _, ⟨⟩, ⟨fits, enough⟩, rfl⟩ := ofBytes?_eq_some_iff.mp h
  have hlen : (rest.take len.toNat).length = len.toNat := List.length_take_of_le enough
  have hbytes := bytes_zeroed 0 hlen fits
  refine ⟨hbytes, ?_⟩
  rw [hbytes, buffer_zeroed 0 len (Nat.le_trans (Nat.le_of_eq hlen) fits), hlen]

/-! ## Putting together -/

/-- An opcode and its parameters are put together to what is read from their bytes. -/
theorem ofOpcode?_eq_ofBytes? (opcode : UInt8) (short : params.length < maxPayload) :
    ofOpcode? opcode params = ofBytes? (.ofNat (params.length + 1) :: opcode :: params) := by
  have hlen : (UInt8.ofNat (params.length + 1)).toNat = params.length + 1 :=
    UInt8.toNat_ofNat_of_lt' (Nat.lt_of_le_of_lt (Nat.succ_le_of_lt short) (by decide))
  have hall : (opcode :: params).take (params.length + 1) = opcode :: params :=
    List.take_of_length_le (Nat.le_refl _)
  rw [ofOpcode?, if_pos short, ofBytes?, hlen, if_pos ⟨short, Nat.le_refl _⟩, hall]

theorem exists_ofOpcode?_iff :
    (∃ f, ofOpcode? opcode params = some f) ↔ params.length < maxPayload := by
  rw [ofOpcode?]
  split <;> simp [*]

/-! ## Any frame -/

/-- Without an opcode there is only the length byte. -/
theorem bytes_of_empty (h : f.len = 0) : f.bytes = [0] := by
  have hpayload : f.payload = [] :=
    List.head?_eq_none_iff.mp (opcode?_eq_none_iff.mpr h)
  rw [bytes, hpayload, h]

theorem length_bytes_le (f : Frame) : f.bytes.length ≤ maxPayload + 1 := by
  rw [bytes, List.length_cons, length_payload]
  exact Nat.succ_le_succ (Nat.min_le_right _ _)

/-- Frames and the bytes on the wire correspond one to one.  Bytes can be read just when there is a
length byte that declares 31 at most and what it declares is there; the frame then travels as these
bytes, and its buffer is zero behind them.  Where the length byte is right, a frame is read back
from its bytes, with the same opcode and parameters.  An opcode and its parameters make a frame just
when there are 30 of them at most, and it is the frame that is read from their bytes.  Any frame,
whatever its length byte, travels as that byte alone if it declares nothing, and else as that byte,
the opcode and the parameters, and never as more than 32 bytes. -/
theorem corresponds_to_bytes :
    (∀ bs, (∃ f, ofBytes? bs = some f) ↔ ∃ len rest, bs = len :: rest ∧
      len.toNat ≤ 31 ∧ len.toNat ≤ rest.length) ∧
    (∀ len rest f, ofBytes? (len :: rest) = some f →
      f.bytes = (len :: rest).take (len.toNat + 1) ∧
        ∀ b ∈ f.buffer.drop (len.toNat + 1), b = 0) ∧
    (∀ f : Frame, f.len.toNat ≤ 31 → ∃ g, ofBytes? f.bytes = some g ∧
      g.bytes = f.bytes ∧ g.opcode? = f.opcode? ∧ g.params = f.params) ∧
    (∀ opcode params, ((∃ f, ofOpcode? opcode params = some f) ↔ params.length ≤ 30) ∧
      (params.length ≤ 30 →
        ofOpcode? opcode params = ofBytes? (.ofNat (params.length + 1) :: opcode :: params))) ∧
    ∀ f : Frame, (f.len = 0 → f.opcode? = none ∧ f.bytes = [0]) ∧
      (f.len ≠ 0 → ∃ opcode, f.opcode? = some opcode ∧ f.bytes = f.len :: opcode :: f.params) ∧
      f.bytes.length ≤ 32 := by
  refine ⟨fun bs ↦ exists_ofBytes?_iff, fun len rest f h ↦ ?_, fun f fits ↦ ?_,
    fun opcode params ↦ ⟨?_, fun short ↦ ?_⟩, fun f ↦ ⟨fun none ↦ ?_, fun some ↦ ?_, ?_⟩⟩
  · obtain ⟨hbytes, hbuffer⟩ := buffer_of_ofBytes? h
    obtain ⟨_, _, ⟨⟩, ⟨-, enough⟩, -⟩ := ofBytes?_eq_some_iff.mp h
    have hlen : f.bytes.length = len.toNat + 1 := by
      rw [hbytes]
      exact List.length_take_of_le (Nat.succ_le_succ enough)
    refine ⟨hbytes, fun b hb ↦ ?_⟩
    rw [hbuffer, List.drop_left' hlen] at hb
    exact List.eq_of_mem_replicate hb
  · have hbytes := bytes_zeroed_payload fits
    exact ⟨_, ofBytes?_bytes fits, hbytes, opcode?_eq_of_bytes hbytes, params_eq_of_bytes hbytes⟩
  · exact exists_ofOpcode?_iff.trans Nat.lt_succ_iff
  · exact ofOpcode?_eq_ofBytes? opcode (Nat.lt_succ_of_le short)
  · exact ⟨opcode?_eq_none_iff.mpr none, bytes_of_empty none⟩
  · obtain ⟨opcode, hop⟩ := Option.ne_none_iff_exists'.mp fun h ↦ some (opcode?_eq_none_iff.mp h)
    exact ⟨opcode, hop, bytes_of_opcode hop⟩
  · exact f.length_bytes_le

/-- The longest frame with a byte left over behind it, and one with a length byte that declares far
too much: the first is read back, the other travels with all of its room. -/
theorem corresponds_to_bytes_longest :
    let bs := 31 :: 0x15 :: List.replicate 30 7
    let overlong := ofBuffer 3 [200, 0x8C, 8]
    (∃ f, ofBytes? (bs ++ [0xEE]) = some f ∧ f.bytes = bs ∧
      ofOpcode? 0x15 (.replicate 30 7) = some f ∧
      ∃ g, ofBytes? f.bytes = some g ∧ g.opcode? = some 0x15 ∧ g.params = .replicate 30 7) ∧
    ofBytes? overlong.bytes = none ∧
      overlong.bytes = 200 :: 0x8C :: 8 :: List.replicate 29 0 ∧ overlong.bytes.length ≤ 32 := by
  intro bs overlong
  obtain ⟨readable, holds, again, together, any⟩ := corresponds_to_bytes
  obtain ⟨f, hf⟩ := (readable (bs ++ [0xEE])).mpr ⟨31, _, rfl, by decide, by decide⟩
  have hbytes : f.bytes = bs := (holds _ _ f hf).1
  have hopcode : f.opcode? = some 0x15 ∧ f.params = .replicate 30 7 :=
    payload_eq_cons_iff.mp (List.cons.inj hbytes).2
  have hlen : f.len = 31 := (List.cons.inj hbytes).1
  obtain ⟨g, hg, -, hop, hparams⟩ := again f (by rw [hlen]; decide)
  have hmade := (together 0x15 (.replicate 30 7)).2 (by decide)
  refine ⟨⟨f, hf, hbytes, ?_, g, hg, hop.trans hopcode.1, hparams.trans hopcode.2⟩, rfl, ?_, ?_⟩
  · exact hmade.trans hf
  · obtain ⟨op, hop, hover⟩ := (any overlong).2.1 (by decide)
    exact hover.trans (by obtain rfl := Option.some.inj hop; rfl)
  · exact (any overlong).2.2

end RadioBoot.Frame
