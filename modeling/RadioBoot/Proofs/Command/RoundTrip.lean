import RadioBoot.Proofs.Frame.Travel

/-!
# Commands are read back

A command is written as its opcode and its parameters, and reading looks at the opcode and takes
the parameters from the front (`ofParams_eq_ok_iff`).  Every command but one needs a fixed number of
parameters, so what is behind them is dropped; data is all that is behind the pipe, so nothing is.
From this follow both directions: what has been written is read as the command it was
(`decode_of_encode`), and what has been read can be written again, as a frame that says no more than
the first one did (`encode_of_decode`).
-/

namespace RadioBoot.Command

variable {c : Command} {f : Frame}

/-! ## Parameters -/

@[simp] theorem ofParams_params (c : Command) : ofParams c.opcode c.params = .ok c := by
  cases c with
  | connect timeout interval => simp [ofParams, opcode, params, Word.bigEndian]
  | _ => rfl

/-- The parameters of a command are read from the front; only data goes on to the end. -/
theorem ofParams_eq_ok_iff {op : UInt8} {ps : List UInt8} :
    ofParams op ps = .ok c ↔ op = c.opcode ∧ ∃ rest, ps = c.params ++ rest ∧
      ∀ pipe data, c = .sendData pipe data → rest = [] := by
  constructor
  · intro h
    unfold ofParams at h
    split at h <;> simp only [Except.ok.injEq, reduceCtorEq] at h <;> subst h
    · exact ⟨rfl, ps, rfl, by simp⟩
    · rename_i t₁ t₀ i₁ i₀ rest
      exact ⟨rfl, rest, by simp [params, Word.bigEndian], by simp⟩
    · rename_i reason rest
      exact ⟨rfl, rest, rfl, by simp⟩
    · exact ⟨rfl, [], (List.append_nil _).symm, fun _ _ _ ↦ rfl⟩
  · rintro ⟨rfl, rest, rfl, hrest⟩
    cases c with
    | sendData pipe data =>
        rw [hrest pipe data rfl, List.append_nil, ofParams_params]
    | connect timeout interval => simp [ofParams, opcode, params, Word.bigEndian]
    | _ => rfl

/-- Only data can be too long for a frame. -/
theorem params_fit_iff :
    c.params.length < maxPayload ↔
      ∀ pipe data, c = .sendData pipe data → data.length ≤ maxPipeData := by
  cases c with
  | sendData pipe data =>
      rw [params, List.length_cons, maxPayload, maxPipeData, maxPayload]
      constructor
      · rintro fits _ _ ⟨⟩
        omega
      · intro fits
        have := fits pipe data rfl
        omega
  | _ => simp [params, Word.bigEndian, maxPayload]

/-! ## Frames -/

/-- The bytes of the frame that says a command. -/
def bytes (c : Command) : List UInt8 :=
  .ofNat (c.params.length + 1) :: c.opcode :: c.params

theorem bytes_of_encode (h : c.encode = .ok f) : f.bytes = c.bytes :=
  (Frame.Sendable.of_encode h).1

/-- These bytes are read as the command. -/
@[simp] theorem read_bytes (c : Command) : read c.bytes = .ok c := c.ofParams_params

/-- A command whose parameters fit has a frame. -/
theorem encode_of_short (short : c.params.length < maxPayload) : ∃ f, c.encode = .ok f := by
  rw [encode, Frame.ofOpcode?, if_pos short]
  exact ⟨_, rfl⟩

/-- Only too much data has none. -/
theorem encode_eq_error_iff {e : CodecError} :
    c.encode = .error e ↔ ∃ pipe data, c = .sendData pipe data ∧ maxPipeData < data.length ∧
      e = .payloadTooLarge data.length maxPipeData := by
  by_cases short : c.params.length < maxPayload
  · obtain ⟨f, hf⟩ := encode_of_short short
    simp only [hf, reduceCtorEq, false_iff]
    rintro ⟨pipe, data, hc, long, -⟩
    exact absurd (params_fit_iff.mp short pipe data hc) (Nat.not_le_of_lt long)
  · have hc : c.encode = .error (.payloadTooLarge (c.params.length - 1) maxPipeData) := by
      rw [encode, Frame.ofOpcode?, if_neg short]
    have hlong : ∃ pipe data, c = .sendData pipe data ∧ maxPipeData < data.length := by
      simpa [params_fit_iff] using short
    obtain ⟨pipe, data, rfl, long⟩ := hlong
    rw [hc]
    constructor
    · intro h
      exact ⟨pipe, data, rfl, long, (Except.error.inj h).symm⟩
    · rintro ⟨_, _, ⟨⟩, -, rfl⟩
      rfl

theorem decode_eq_ok_iff :
    decode f = .ok c ↔ f.opcode? = some c.opcode ∧ ofParams c.opcode f.params = .ok c := by
  rw [decode]
  cases f.opcode? with
  | none => simp
  | some op =>
      dsimp only
      rw [Option.some_inj]
      constructor
      · intro h
        obtain rfl := (ofParams_eq_ok_iff.mp h).1
        exact ⟨rfl, h⟩
      · rintro ⟨rfl, h⟩
        exact h

/-- What a frame says is decided by the bytes that travel. -/
theorem decode_congr {g : Frame} (h : f.bytes = g.bytes) : decode f = decode g := by
  rw [decode_eq_read, decode_eq_read, h]

/-- What has been written is read. -/
theorem decode_of_encode (h : c.encode = .ok f) : decode f = .ok c := by
  rw [decode_eq_read, bytes_of_encode h, read_bytes]

/-- What has been read can be written: the payload of the new frame is at the front of the payload
of the first one. -/
theorem encode_of_decode (h : decode f = .ok c) :
    ∃ g, c.encode = .ok g ∧ g.payload = c.opcode :: c.params ∧ g.payload <+: f.payload := by
  obtain ⟨hop, hps⟩ := decode_eq_ok_iff.mp h
  obtain ⟨-, rest, hparams, -⟩ := ofParams_eq_ok_iff.mp hps
  have short : c.params.length < maxPayload := by
    have hlen := f.length_params_lt
    rw [hparams, List.length_append] at hlen
    exact Nat.lt_of_le_of_lt (Nat.le_add_right _ _) hlen
  obtain ⟨g, hg⟩ := encode_of_short short
  have hpayload : g.payload = c.opcode :: c.params := (List.cons.inj (bytes_of_encode hg)).2
  refine ⟨g, hg, hpayload, ?_⟩
  rw [hpayload, Frame.payload_of_opcode hop, hparams]
  exact ⟨rest, rfl⟩

/-- Where the length byte is right, data that has been read is written as it was. -/
theorem bytes_of_decode_sendData {pipe : UInt8} {data : List UInt8} {g : Frame}
    (h : decode f = .ok (.sendData pipe data)) (fits : f.len.toNat ≤ maxPayload)
    (hg : (Command.sendData pipe data).encode = .ok g) : g.bytes = f.bytes := by
  obtain ⟨hop, hps⟩ := decode_eq_ok_iff.mp h
  obtain ⟨-, rest, hparams, hrest⟩ := ofParams_eq_ok_iff.mp hps
  rw [hrest pipe data rfl, List.append_nil] at hparams
  have hlen : (sendData pipe data).params.length + 1 = f.len.toNat := by
    rw [← hparams, Frame.length_params_of_opcode hop, Frame.declared, Nat.min_eq_left fits]
  rw [bytes_of_encode hg, bytes, hlen, Frame.bytes_of_opcode hop, hparams, UInt8.ofNat_toNat]

/-- Writing and reading commands are inverse.  Every command has a frame that is read as this
command, except for data of more bytes than fit, and then the error says how many there are.  Every
frame that is read as a command, whatever its length byte and whatever is left over behind the
declared bytes, can be written again: the new frame is read as the same command, and its opcode and
parameters are at the front of those of the first one.  Data is written with the very same bytes if
the length byte is no more than fits.  What a frame is read as is decided by the bytes that
travel. -/
theorem reads_back :
    (∀ c : Command,
      (∀ e, c.encode = .error e ↔ ∃ pipe data, c = .sendData pipe data ∧ 29 < data.length ∧
        e = .payloadTooLarge data.length 29) ∧
      ∀ f, c.encode = .ok f → decode f = .ok c) ∧
    (∀ f c, decode f = .ok c →
      ∃ g, c.encode = .ok g ∧ decode g = .ok c ∧ g.payload <+: f.payload ∧
        ∀ pipe data, c = .sendData pipe data → f.len.toNat ≤ 31 → g.bytes = f.bytes) ∧
    ∀ f g : Frame, f.bytes = g.bytes → decode f = decode g := by
  refine ⟨fun c ↦ ⟨fun e ↦ encode_eq_error_iff, fun f ↦ decode_of_encode⟩, fun f c h ↦ ?_,
    fun f g ↦ decode_congr⟩
  obtain ⟨g, hg, -, hfront⟩ := encode_of_decode h
  refine ⟨g, hg, decode_of_encode hg, hfront, ?_⟩
  rintro pipe data rfl fits
  exact bytes_of_decode_sendData h fits hg

/-- A length byte that declares far too much, so that the data goes on to the end of the room, and a
right one with a byte left over behind it. -/
theorem reads_back_corrupt :
    let long := Frame.ofBuffer 7 [200, 0x15, 9, 1, 2]
    let data := [1, 2] ++ List.replicate 27 0
    let right := Frame.ofBuffer 0 [3, 0x15, 9, 5, 0xEE]
    (decode long = .ok (.sendData 9 data) ∧
      ∃ g, (sendData 9 data).encode = .ok g ∧ decode g = .ok (.sendData 9 data) ∧
        g.payload <+: long.payload) ∧
    decode right = .ok (.sendData 9 [5]) ∧
      ∃ g, (sendData 9 [5]).encode = .ok g ∧ g.bytes = right.bytes := by
  intro long data right
  have hlong : decode long = .ok (.sendData 9 data) := by rfl
  have hright : decode right = .ok (.sendData 9 [5]) := by rfl
  obtain ⟨-, again, -⟩ := reads_back
  obtain ⟨g, hg, hread, hfront, -⟩ := again long _ hlong
  obtain ⟨g', hg', -, -, hsame⟩ := again right _ hright
  exact ⟨⟨hlong, g, hg, hread, hfront⟩, hright, g', hg', hsame 9 [5] rfl (by decide)⟩

end RadioBoot.Command
