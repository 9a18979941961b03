import RadioBoot.Command
import RadioBoot.Event
import RadioBoot.Frame.Ring.Lemmas

/-!
# Frames as they travel

What a frame says is in the bytes that it declares; the room behind them, and the status, are the
business of whoever holds it.  So frames are followed by their bytes, both those that wait in a ring
(`FrameRing.waiting`) and those that a radio has recorded.  Events and commands are read off the
bytes (`Event.decode_eq_read`, `Command.decode_eq_read`), and a frame that declares something and
fits is found again in its bytes (`Sendable.ofBytes?`).
-/

namespace RadioBoot

namespace Frame

variable {f g : Frame}

theorem len_eq_of_bytes (h : f.bytes = g.bytes) : f.len = g.len := (List.cons.inj h).1

theorem payload_eq_of_bytes (h : f.bytes = g.bytes) : f.payload = g.payload := (List.cons.inj h).2

theorem opcode?_eq_of_bytes (h : f.bytes = g.bytes) : f.opcode? = g.opcode? :=
  congrArg List.head? (payload_eq_of_bytes h)

theorem params_eq_of_bytes (h : f.bytes = g.bytes) : f.params = g.params :=
  congrArg List.tail (payload_eq_of_bytes h)

/-- The opcode and the parameters are all of the payload. -/
theorem payload_eq_cons_iff {opcode : UInt8} {params : List UInt8} :
    f.payload = opcode :: params ↔ f.opcode? = some opcode ∧ f.params = params := by
  rw [opcode?, Frame.params]
  cases f.payload <;> simp

theorem payload_of_opcode {opcode : UInt8} (h : f.opcode? = some opcode) :
    f.payload = opcode :: f.params := payload_eq_cons_iff.mpr ⟨h, rfl⟩

/-- Whatever the length byte, a frame travels as that byte and then its opcode and parameters. -/
theorem bytes_of_opcode {opcode : UInt8} (h : f.opcode? = some opcode) :
    f.bytes = f.len :: opcode :: f.params := congrArg (f.len :: ·) (payload_of_opcode h)

/-- Only a frame that declares nothing has no opcode. -/
theorem opcode?_eq_none_iff : f.opcode? = none ↔ f.len = 0 := by
  rw [opcode?, List.head?_eq_none_iff, ← List.length_eq_zero_iff, length_payload, declared,
    ← UInt8.toNat_inj]
  change min f.len.toNat 31 = 0 ↔ f.len.toNat = 0
  omega

/-- One of the declared bytes is the opcode. -/
theorem length_params_of_opcode {opcode : UInt8} (h : f.opcode? = some opcode) :
    f.params.length + 1 = f.declared := by
  rw [← length_payload, payload_of_opcode h, List.length_cons]

/-- There are never more parameters than fit behind an opcode. -/
theorem length_params_lt (f : Frame) : f.params.length < maxPayload := by
  rw [params, List.length_tail, length_payload, declared]
  change min f.len.toNat 31 - 1 < 31
  omega

/-- There is always room for a first byte. -/
theorem exists_room (f : Frame) : ∃ b rest, f.room = b :: rest ∧ rest.length + 1 = maxPayload := by
  have hlen := f.length_room
  cases hroom : f.room with
  | nil =>
      rw [hroom] at hlen
      exact absurd hlen (by decide)
  | cons b rest =>
      rw [hroom, List.length_cons] at hlen
      exact ⟨b, rest, rfl, hlen⟩

/-- A frame that declares something and fits declares its first byte. -/
theorem bytes_of_room {b : UInt8} {rest : List UInt8} (hroom : f.room = b :: rest)
    (declares : f.isEmpty = false) (fits : f.len.toNat ≤ maxPayload) :
    f.bytes = f.len :: b :: rest.take (f.len.toNat - 1) := by
  have hpos : f.len.toNat ≠ 0 := by
    intro h
    rw [isEmpty, decide_eq_false_iff_not] at declares
    exact declares (UInt8.toNat_inj.mp h)
  rw [bytes, payload, declared, Nat.min_eq_left fits, hroom,
    List.take_cons (Nat.pos_of_ne_zero hpos)]

/-- The payload of a frame with zeroed room: what was put in front, filled up with zeros as far as
the frame declares. -/
theorem payload_zeroed (status len : UInt8) (payload : List UInt8) :
    (zeroed status len payload).payload =
      (overlay payload (.replicate maxPayload 0)).take (min len.toNat maxPayload) := rfl

/-- A payload of the declared length is all that travels. -/
theorem bytes_zeroed (status : UInt8) {len : UInt8} {payload : List UInt8}
    (h : payload.length = len.toNat) (fits : len.toNat ≤ maxPayload) :
    (zeroed status len payload).bytes = len :: payload := by
  have hfit : payload.length ≤ (List.replicate maxPayload (0 : UInt8)).length := by
    rw [List.length_replicate, h]
    exact fits
  rw [bytes, payload_zeroed, Nat.min_eq_left fits, ← h, take_overlay hfit]
  rfl

/-- Where the length byte is right, the bytes of a frame are read back as the frame with zeros
behind them. -/
theorem ofBytes?_bytes (fits : f.len.toNat ≤ maxPayload) :
    Frame.ofBytes? f.bytes = some (zeroed 0 f.len f.payload) := by
  have hlen : f.payload.length = f.len.toNat := by
    rw [length_payload, declared, Nat.min_eq_left fits]
  rw [bytes, Frame.ofBytes?, if_pos ⟨fits, Nat.le_of_eq hlen.symm⟩, ← hlen, List.take_length]

/-- And that frame travels as the first one did. -/
theorem bytes_zeroed_payload (fits : f.len.toNat ≤ maxPayload) :
    (zeroed 0 f.len f.payload).bytes = f.bytes :=
  bytes_zeroed 0 (by rw [length_payload, declared, Nat.min_eq_left fits]) fits

/-- A length that is cut to the room of a frame is not changed by being a byte. -/
theorem toNat_cut (n : Nat) : (UInt8.ofNat (min n maxPayload)).toNat = min n maxPayload :=
  UInt8.toNat_ofNat_of_lt' (Nat.lt_of_le_of_lt (Nat.min_le_right _ _) (by decide))

/-- A frame that declares what was announced, cut to its room, travels as that many of the bytes
that followed. -/
theorem bytes_cut (status announced : UInt8) {rest : List UInt8}
    (enough : min announced.toNat maxPayload ≤ rest.length) :
    (zeroed status (.ofNat (min announced.toNat maxPayload)) rest).bytes =
      .ofNat (min announced.toNat maxPayload) :: rest.take (min announced.toNat maxPayload) := by
  have room : min announced.toNat maxPayload ≤ maxPayload := Nat.min_le_right _ _
  rw [bytes, payload_zeroed, toNat_cut, Nat.min_eq_left room, overlay, List.length_replicate,
    List.take_append_of_le_length (by rw [List.length_take]; exact Nat.le_min.mpr ⟨room, enough⟩),
    List.take_take, Nat.min_eq_left room]
  rfl

/-- Bytes of a frame that can be sent: it declares something, and no more than fits. -/
def Sendable (bs : List UInt8) : Prop :=
  ∃ f : Frame, f.bytes = bs ∧ f.isEmpty = false ∧ f.len.toNat ≤ maxPayload

namespace Sendable

theorem isEmpty (h : Sendable f.bytes) : f.isEmpty = false := by
  obtain ⟨g, hg, declares, _⟩ := h
  rwa [Frame.isEmpty, ← len_eq_of_bytes hg]

theorem fits (h : Sendable f.bytes) : f.len.toNat ≤ maxPayload := by
  obtain ⟨g, hg, _, fits⟩ := h
  rwa [← len_eq_of_bytes hg]

/-- The bytes of a frame that can be sent are read back as a frame with these bytes. -/
theorem ofBytes? {bs : List UInt8} (h : Sendable bs) :
    ∃ f, Frame.ofBytes? bs = some f ∧ f.bytes = bs := by
  obtain ⟨g, rfl, _, fits⟩ := h
  exact ⟨_, ofBytes?_bytes fits, bytes_zeroed_payload fits⟩

/-- An opcode and its parameters make a frame that can be sent, as far as they fit. -/
theorem of_ofOpcode? {opcode : UInt8} {params : List UInt8} (h : ofOpcode? opcode params = some f) :
    f.bytes = .ofNat (params.length + 1) :: opcode :: params ∧ Sendable f.bytes := by
  rw [ofOpcode?] at h
  split at h
  · rename_i short
    obtain rfl := Option.some.inj h
    have hlen : (UInt8.ofNat (params.length + 1)).toNat = params.length + 1 :=
      UInt8.toNat_ofNat_of_lt' (by rw [maxPayload] at short; simp only [UInt8.size]; omega)
    have fits : (UInt8.ofNat (params.length + 1)).toNat ≤ maxPayload := by
      rw [hlen]
      exact short
    refine ⟨bytes_zeroed 0 (by rw [hlen, List.length_cons]) fits, _, rfl, ?_, fits⟩
    refine decide_eq_false fun h ↦ ?_
    rw [show (zeroed 0 (.ofNat (params.length + 1)) (opcode :: params)).len =
      .ofNat (params.length + 1) from rfl] at h
    rw [h] at hlen
    exact absurd hlen (by simp)
  · exact absurd h (by simp)

/-- Every command that fits a frame can be sent. -/
theorem of_encode {c : Command} (h : c.encode = .ok f) :
    f.bytes = .ofNat (c.params.length + 1) :: c.opcode :: c.params ∧ Sendable f.bytes := by
  rw [Command.encode] at h
  split at h
  · rename_i hf
    obtain rfl := Except.ok.inj h
    exact of_ofOpcode? hf
  · exact absurd h (by simp)

end Sendable

end Frame

/-- The event that the bytes of a frame report. -/
def Event.read : List UInt8 → Except CodecError Event
  | _ :: opcode :: params => ofParams opcode params
  | _ => .error .empty

theorem Event.decode_eq_read (f : Frame) : Event.decode f = Event.read f.bytes := by
  rw [Event.decode, Frame.opcode?, Frame.params, Frame.bytes]
  cases f.payload <;> rfl

/-- The command that the bytes of a frame give. -/
def Command.read : List UInt8 → Except CodecError Command
  | _ :: opcode :: params => ofParams opcode params
  | _ => .error .empty

theorem Command.decode_eq_read (f : Frame) : Command.decode f = Command.read f.bytes := by
  rw [Command.decode, Frame.opcode?, Frame.params, Frame.bytes]
  cases f.payload <;> rfl

namespace FrameRing

variable {slots : Nat}

/-- The bytes of the waiting frames, oldest first. -/
def waiting (r : FrameRing slots) : List (List UInt8) := r.toList.map Frame.bytes

@[simp] theorem waiting_empty (slots : Nat) (pos : 0 < slots) : (empty slots pos).waiting = [] := by
  simp [waiting]

@[simp] theorem waiting_clear (r : FrameRing slots) : r.clear.waiting = [] := by
  simp [waiting]

@[simp] theorem length_waiting (r : FrameRing slots) : r.waiting.length = r.size := by
  simp [waiting]

/-- A ring is empty just when nothing waits in it. -/
theorem isEmpty_eq (r : FrameRing slots) : r.isEmpty = r.waiting.isEmpty := by
  rw [Bool.eq_iff_iff, isEmpty_iff, List.isEmpty_iff, ← length_waiting, List.length_eq_zero_iff]

/-- A frame that is taken waits behind the others, and one that is refused changes nothing. -/
theorem waiting_enqueue (r : FrameRing slots) (f : Frame) :
    (r.enqueue f).2.waiting = r.waiting ++ if (r.enqueue f).1 then [f.bytes] else [] := by
  cases full : r.isFull with
  | true => simp [enqueue_of_isFull full]
  | false => simp [waiting, toList_enqueue full, enqueue_fst, full]

/-- What is taken is what waited first. -/
theorem waiting_dequeue (r : FrameRing slots) :
    r.waiting = (r.dequeue.1.map Frame.bytes).toList ++ r.dequeue.2.waiting := by
  cases none : r.isEmpty with
  | true => simp [dequeue, none]
  | false => simp [waiting, toList_of_dequeue none, dequeue, none]

theorem waiting_dequeue_snd (r : FrameRing slots) : r.dequeue.2.waiting = r.waiting.tail := by
  cases none : r.isEmpty with
  | true =>
      have : r.waiting = [] := by rwa [isEmpty_eq, List.isEmpty_iff] at none
      simp [dequeue, none, this]
  | false => simp [waiting, toList_of_dequeue none]

end FrameRing

end RadioBoot
