import RadioBoot.Bytes

/-!
# Frames

A frame is what the host and the radio exchange in one transfer: a length byte, then room for 31
bytes, of which the length byte declares how many count. The first of those is the opcode and the
others are its parameters. Bytes behind the declared end are left over from earlier use; the
length byte may declare more than there is room for, and then all the room counts.
-/

namespace RadioBoot

/-- The longest payload of a frame: an opcode and 30 parameters. -/
def maxPayload : Nat := 31

/-- The most bytes of data on a pipe that fit a frame, behind an opcode and the pipe. -/
def maxPipeData : Nat := maxPayload - 2

/-- A length byte, the room behind it, and the status byte that the radio sent with it. -/
@[ext] structure Frame where
  /-- Comes in with the first byte of a transfer; says nothing about the payload. -/
  status : UInt8
  /-- The declared length, which may be any byte. -/
  len : UInt8
  /-- The 31 bytes behind the length byte. -/
  room : List UInt8
  length_room : room.length = maxPayload
deriving DecidableEq

namespace Frame

/-- Nothing declared, and every byte zero. -/
def empty : Frame := ⟨0, 0, .replicate maxPayload 0, by simp⟩

instance : Inhabited Frame := ⟨empty⟩

/-- A frame with the given length byte and `payload` at the front of zeroed room. -/
def zeroed (status len : UInt8) (payload : List UInt8) : Frame :=
  ⟨status, len, overlay payload (.replicate maxPayload 0), by simp⟩

/-- The number of bytes behind the length byte that count. -/
def declared (f : Frame) : Nat := min f.len.toNat maxPayload

/-- Whether the length byte declares nothing. -/
def isEmpty (f : Frame) : Bool := f.len = 0

/-- The bytes that count, the opcode first. -/
def payload (f : Frame) : List UInt8 := f.room.take f.declared

/-- What the frame asks for or reports, when it declares anything. -/
def opcode? (f : Frame) : Option UInt8 := f.payload.head?

/-- The declared bytes behind the opcode. -/
def params (f : Frame) : List UInt8 := f.payload.tail

/-- The frame as it travels: the length byte and the bytes it declares. -/
def bytes (f : Frame) : List UInt8 := f.len :: f.payload

/-- The length byte and all the room behind it, left-over bytes included. -/
def buffer (f : Frame) : List UInt8 := f.len :: f.room

@[simp] theorem length_payload (f : Frame) : f.payload.length = f.declared := by
  have := f.length_room
  simp only [payload, declared, List.length_take]
  omega

@[simp] theorem length_buffer (f : Frame) : f.buffer.length = maxPayload + 1 := by
  simp [buffer, f.length_room]

/-- The frame of an opcode and its parameters, if they fit. -/
def ofOpcode? (opcode : UInt8) (params : List UInt8) : Option Frame :=
  if params.length < maxPayload then
    some (zeroed 0 (.ofNat (params.length + 1)) (opcode :: params))
  else
    none

/-- The frame at the front of `bs`. Refused are no bytes at all, a declared length above 31, and
fewer bytes than the length byte declares; bytes behind the declared ones are not looked at. -/
def ofBytes? : List UInt8 → Option Frame
  | [] => none
  | len :: rest =>
    if len.toNat ≤ maxPayload ∧ len.toNat ≤ rest.length then
      some (zeroed 0 len (rest.take len.toNat))
    else
      none

/-- The frame whose buffer starts with `bs` and is zero behind it, whatever length that declares. -/
def ofBuffer (status : UInt8) (bs : List UInt8) : Frame :=
  zeroed status (bs.headD 0) bs.tail

/-- Store `f` in the cell `old`: its length byte and declared bytes are copied, the rest of the
cell keeps its bytes, and the status is dropped. -/
def storedOver (f old : Frame) : Frame :=
  ⟨0, f.len, overlay f.payload old.room, by simp [old.length_room]⟩

/-- Where two frames travel alike, storing either leaves the cell the same. -/
theorem storedOver_congr {f g : Frame} (h : f.bytes = g.bytes) (old : Frame) :
    f.storedOver old = g.storedOver old := by
  obtain ⟨hlen, hpay⟩ := List.cons.inj h
  ext1
  · rfl
  · exact hlen
  · simp only [storedOver, hpay]

@[simp] theorem bytes_storedOver (f old : Frame) : (f.storedOver old).bytes = f.bytes := by
  have hlen : f.payload.length = (f.storedOver old).declared := by
    simp [declared, storedOver]
  have hfit : f.payload.length ≤ old.room.length := by
    rw [length_payload, old.length_room]
    exact Nat.min_le_right _ _
  show _ :: _ = _
  rw [bytes, payload, ← hlen]
  simp only [storedOver, take_overlay hfit]

/-- An opcode as the log writes it. -/
def describeOpcode : Option UInt8 → String
  | none => "None"
  | some op => s!"Some({op})"

/-- The frame as a line of text: its status, length, opcode and parameters. -/
def describe (f : Frame) : String :=
  "Frame \x7b status: " ++ toString f.status ++ ", len: " ++ toString f.len ++ ", opcode: " ++
    describeOpcode f.opcode? ++ ", params: [" ++
    ", ".intercalate (f.params.map toString) ++ "] \x7d"

end Frame

end RadioBoot
