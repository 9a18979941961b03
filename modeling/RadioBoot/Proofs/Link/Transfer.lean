import RadioBoot.Link
import RadioBoot.Proofs.Frame.Travel
import RadioBoot.Sim.Radio

/-!
# One transfer

A transfer moves a frame each way at once, byte by byte, and neither side knows beforehand how much
the other has to say.  Here the bytes are put together again.  Over a simulated radio whose bus
works, whatever the two lengths are, the radio records the whole of the frame that was sent
(`finish_eq`), and the host gets the oldest event as far as a frame has room for it, with zeros
behind its end (`Radio.heard`, `clock_eq`).
-/

namespace RadioBoot

namespace Sim.Radio

/-- Between two transfers, on a bus that works. -/
structure Calm (r : Radio) : Prop where
  busFault : r.busFault = false
  clocked : r.clocked = []

/-! ## What the two sides get -/

/-- What the host hears of an event: the bytes that its length byte declares, as far as a frame has
room for them, and zeros where the event is shorter than that. -/
def heard (event : List UInt8) : List UInt8 :=
  let n := min (event.headD 0).toNat maxPayload
  .ofNat n :: overlay event.tail (.replicate n 0)

/-- An event that declares nothing is not heard. -/
def heard? (event : List UInt8) : Option (List UInt8) :=
  if event.headD 0 = 0 then none else some (heard event)

/-- A fresh radio that does by itself what `r` does. -/
def settings (r : Radio) : Radio where
  autoCredit := r.autoCredit
  autoDisconnect := r.autoDisconnect
  autoConnect := r.autoConnect

/-- The events that the radio adds by itself when it records a frame. -/
def answersTo (r : Radio) : List UInt8 → List (List UInt8)
  | _ :: opcode :: _ => (r.settings.answer opcode).pending
  | _ => []

/-- What a radio adds by itself is up to its settings. -/
theorem answersTo_congr {r r' : Radio} (h : r'.settings = r.settings) :
    r'.answersTo = r.answersTo := by
  funext frame
  unfold answersTo
  rw [h]

theorem length_markPipes (pipes : List UInt8) :
    ∀ maps : List UInt8, (pipes.foldl markPipe maps).length = maps.length := by
  induction pipes with
  | nil =>
      intro maps
      rfl
  | cons p rest ih =>
      intro maps
      rw [List.foldl_cons, ih, markPipe, List.length_modify]

/-- Each of them is whole, and none reports data. -/
theorem of_mem_answersTo {r : Radio} {frame e : List UInt8} (he : e ∈ r.answersTo frame) :
    ∃ opcode params, opcode ≠ 0x8C ∧ params.length < maxPayload ∧
      e = .ofNat (params.length + 1) :: opcode :: params := by
  unfold answersTo at he
  split at he
  · unfold answer at he
    split at he
    · split at he
      · obtain rfl : e = [2, 0x8A, 1] := by simpa [pushCredit, push, settings] using he
        exact ⟨0x8A, [1], by decide, by decide, rfl⟩
      · exact absurd he (by simp [settings])
    · split at he
      · obtain rfl : e = [3, 0x86, 0x03, 0x13] := by
          simpa [pushDisconnected, push, settings] using he
        exact ⟨0x86, [0x03, 0x13], by decide, by decide, rfl⟩
      · exact absurd he (by simp [settings])
    · split at he
      · rename_i pipes _
        simp only [pushConnected, pushPipes, push, settings, List.nil_append, List.cons_append,
          List.mem_cons, List.not_mem_nil, or_false] at he
        rcases he with rfl | rfl
        · exact ⟨0x85, [0x01, 0xC0, 0xFF, 0xEE, 0x01, 0x02, 0x03, 0x18, 0x00, 0x00, 0x00, 0xF4,
            0x01, 0x00], by decide, by decide, rfl⟩
        · refine ⟨0x88, pipes.foldl markPipe (List.replicate 16 0), by decide, ?_, ?_⟩
          · rw [length_markPipes]
            decide
          · rw [length_markPipes]
            rfl
      · exact absurd he (by simp [settings])
    · exact absurd he (by simp [settings])
  · exact absurd he (by simp)

/-- Answering adds events behind the pending ones and does nothing else. -/
theorem answer_eq (r : Radio) (opcode : UInt8) :
    r.answer opcode = { r with pending := r.pending ++ (r.settings.answer opcode).pending } := by
  have hpush (on : Bool) (event : List UInt8) : (if on then r.push event else r) =
      { r with pending := r.pending ++
        (if on then r.settings.push event else r.settings).pending } := by
    cases on <;> simp [push, settings]
  unfold answer
  split
  · exact hpush r.autoCredit _
  · exact hpush r.autoDisconnect _
  · rw [show r.settings.autoConnect = r.autoConnect from rfl]
    split
    · simp [pushConnected, pushPipes, push, settings]
    · simp [settings]
  · simp [settings]

/-- The frame that the host makes of its answers is what is heard, as long as it clocks enough of
them: byte by byte the rest of the event, and zeros behind its end. -/
theorem bytes_of_answers (event : List UInt8) {n : Nat}
    (h : min (event.headD 0).toNat maxPayload ≤ n) :
    (Frame.zeroed 0 (.ofNat (min (event.headD 0).toNat maxPayload))
      ((List.range n).map fun i ↦ event.getD (1 + i) 0)).bytes = heard event := by
  rw [Frame.bytes_cut 0 (event.headD 0) (by rwa [List.length_map, List.length_range]), heard]
  generalize min (event.headD 0).toNat maxPayload = d at h
  refine congrArg (_ :: ·) (List.ext_getElem? fun i ↦ ?_)
  simp only [overlay, List.length_replicate, List.getElem?_map, List.getElem?_append,
    List.length_take, List.getElem?_take, List.drop_replicate, List.getElem?_replicate,
    List.getD_eq_getElem?_getD, List.getElem?_tail, List.length_tail]
  by_cases hi : i < d
  · rw [if_pos hi, List.getElem?_range (by omega), Option.map_some, Nat.add_comm 1 i, if_pos hi]
    -- before the end of the event, and behind it
    by_cases he : i + 1 < event.length
    · rw [if_pos (by omega), List.getElem?_eq_getElem he, Option.getD_some]
    · rw [if_neg (by omega), if_pos (by omega), List.getElem?_eq_none (by omega), Option.getD_none]
  · rw [if_neg hi, if_neg (by omega), if_neg (by omega)]

/-- The radio in the middle of a transfer, with these bytes clocked. -/
def underway (r : Radio) (bytes : List UInt8) : Radio :=
  { r with clocked := bytes, outgoing := r.pending.headD [], pending := r.pending.tail }

end Sim.Radio

namespace Link

open Sim Sim.Radio

variable {l : Link Radio} {r : Radio}

/-! ## Byte by byte -/

/-- On a bus that works every exchange succeeds. -/
theorem exchange_eq (h : l.port.busFault = false) (b : UInt8) :
    l.exchange b = (.ok (l.port.clock b).1, { l with port := (l.port.clock b).2 }) := by
  simp only [exchange, Port.exchange, h, settle]
  rfl

/-- The first byte of a transfer takes the oldest event. -/
theorem exchange_first (h : l.port.Calm) (b : UInt8) :
    l.exchange b = (.ok 0, { l with port := l.port.underway [b] }) := by
  rw [exchange_eq h.busFault, Radio.clock, h.clocked]
  rfl

/-- A later byte brings one more byte of the event. -/
theorem exchange_later (h : r.busFault = false) (first b : UInt8) (earlier : List UInt8) :
    { l with port := r.underway (first :: earlier) }.exchange b =
      (.ok ((r.pending.headD []).getD earlier.length 0),
        { l with port := r.underway (first :: earlier ++ [b]) }) := by
  rw [exchange_eq (l := { l with port := r.underway (first :: earlier) }) h]
  rfl

/-- More bytes bring more of the event. -/
theorem exchangeAll_later (h : r.busFault = false) (first : UInt8) (bytes : List UInt8) :
    ∀ earlier, { l with port := r.underway (first :: earlier) }.exchangeAll bytes =
      (.ok ((List.range bytes.length).map fun i ↦ (r.pending.headD []).getD (earlier.length + i) 0),
        { l with port := r.underway (first :: earlier ++ bytes) }) := by
  induction bytes with
  | nil =>
      intro earlier
      simp [exchangeAll]
  | cons b rest ih =>
      intro earlier
      rw [exchangeAll, exchange_later h]
      dsimp only
      rw [List.cons_append, ih (earlier ++ [b])]
      simp only [List.length_cons, List.range_succ_eq_map, List.map_cons, List.map_map,
        Nat.add_zero, List.append_assoc, List.cons_append, List.nil_append, List.length_append,
        List.length_nil, Function.comp_def, Nat.succ_eq_add_one, Nat.add_assoc, Nat.add_comm 1]

/-- The bytes that a transfer clocks out: the frame as far as its room goes, and a byte behind
it. -/
def clockedOut (out : Frame) (announced : UInt8) : List UInt8 :=
  out.len :: (out.room ++ [0]).take (trailing out announced + 1)

theorem length_clockedOut (out : Frame) (announced : UInt8) :
    (clockedOut out announced).length = trailing out announced + 2 := by
  have hn : trailing out announced ≤ maxPayload := Nat.min_le_left _ _
  rw [clockedOut, List.length_cons, List.length_take, List.length_append, out.length_room,
    List.length_singleton, Nat.min_eq_left (Nat.succ_le_succ hn)]

/-- However few bytes the radio has to report, the whole of a frame that fits is clocked out. -/
theorem take_clockedOut {out : Frame} (fits : out.len.toNat ≤ maxPayload) (announced : UInt8) :
    (clockedOut out announced).take (out.len.toNat + 1) = out.bytes := by
  have enough : out.len.toNat ≤ trailing out announced + 1 := by
    rw [trailing]
    omega
  rw [clockedOut, List.take_succ_cons, List.take_take, Nat.min_eq_left enough,
    List.take_append_of_le_length (out.length_room ▸ fits), Frame.bytes, Frame.payload,
    Frame.declared, Nat.min_eq_left fits]

/-- A transfer takes the oldest event, and what the host gets of it is what is heard. -/
theorem clock_eq (h : l.port.Calm) (out : Frame) :
    ∃ f log, l.clock out = (.ok f, { l with
        port := l.port.underway (clockedOut out ((l.port.pending.headD []).headD 0))
        log := log }) ∧
      f.bytes = heard (l.port.pending.headD []) := by
  generalize he : l.port.pending.headD [] = event
  obtain ⟨b, rest, hroom, hlen⟩ := out.exists_room
  have hhead : event.getD 0 0 = event.headD 0 := by cases event <;> rfl
  have hn : trailing out (event.headD 0) ≤ maxPayload := Nat.min_le_left _ _
  have htake : ((rest ++ [0]).take (trailing out (event.headD 0))).length =
      trailing out (event.headD 0) := by
    rw [List.length_take, List.length_append, List.length_singleton, hlen]
    exact Nat.min_eq_left hn
  -- a line about the length, or none, is all that the branches differ in
  obtain ⟨log, hlog⟩ : ∃ log,
      (if maxPayload < (event.headD 0).toNat then
        { l with port := l.port.underway [out.len, b] }.note (truncating (event.headD 0))
      else { l with port := l.port.underway [out.len, b] }) =
        { l with port := l.port.underway [out.len, b], log := log } := by
    split
    · exact ⟨_, rfl⟩
    · exact ⟨_, rfl⟩
  refine ⟨_, transferred out.len (event.headD 0) (trailing out (event.headD 0) + 2) :: log, ?_,
    bytes_of_answers event (n := trailing out (event.headD 0)) ?_⟩
  · rw [clock, exchange_first h]
    dsimp only
    rw [exchange_later h.busFault]
    simp only [he, List.length_nil, hhead, hroom, List.headD_cons, List.tail_cons,
      List.cons_append, List.nil_append]
    rw [hlog, exchangeAll_later (l := { l with log := log }) h.busFault, htake, he, clockedOut,
      hroom]
    rfl
  · rw [trailing]
    omega

end Link

/-! ## The end of a transfer -/

namespace Sim.Radio

/-- The radio after a transfer that brought it these frames, one or none: the oldest event is
reported, and the frames are recorded and answered. -/
def exchanged (r : Radio) (frames : List (List UInt8)) : Radio :=
  { r with
    clocked := []
    outgoing := []
    pending := r.pending.tail ++ frames.flatMap r.answersTo
    sent := r.sent ++ frames }

/-- A frame that was clocked out whole is answered and recorded, and anything less is dropped. -/
theorem value_finish {r : Radio} {len opcode : UInt8} {rest : List UInt8}
    (h : r.clocked = len :: opcode :: rest) :
    r.finish.value = if len = 0 ∨ r.clocked.length < len.toNat + 1 then
        { r with clocked := [], outgoing := [] }
      else
        { r with
          clocked := []
          outgoing := []
          pending := r.pending ++ (r.settings.answer opcode).pending
          sent := r.sent ++ [r.clocked.take (len.toNat + 1)] } := by
  unfold finish
  split
  · rename_i hclocked
    rw [h] at hclocked
    obtain ⟨rfl, rfl, rfl⟩ := by simpa using hclocked
    by_cases short : len = 0 ∨ r.clocked.length < len.toNat + 1
    · rw [if_pos short, if_pos short]
      rfl
    · rw [if_neg short, if_neg short, answer_eq]
      rfl
  · rename_i other
    exact absurd h (other _ _ _)

/-- However many bytes the radio had to report, it gets the whole of a frame that fits; an empty one
is not recorded. -/
theorem finish_eq (r : Radio) {out : Frame} (fits : out.len.toNat ≤ maxPayload)
    (announced : UInt8) :
    (r.underway (Link.clockedOut out announced)).finish.value =
      r.exchanged (if out.isEmpty then [] else [out.bytes]) := by
  obtain ⟨b, rest, hroom, hlen⟩ := out.exists_room
  have hclocked : Link.clockedOut out announced =
      out.len :: b :: (rest ++ [0]).take (Link.trailing out announced) := by
    rw [Link.clockedOut, hroom]
    rfl
  cases empty : out.isEmpty with
  | true =>
      have hzero : out.len = 0 := by simpa [Frame.isEmpty] using empty
      simp [finish, underway, exchanged, hclocked, hzero]
  | false =>
      have hans : r.answersTo out.bytes = (r.settings.answer b).pending := by
        rw [Frame.bytes_of_room hroom empty fits, answersTo]
      have whole : ¬(out.len = 0 ∨
          (Link.clockedOut out announced).length < out.len.toNat + 1) := by
        rintro (h | h)
        · simp [Frame.isEmpty, h] at empty
        · rw [Link.length_clockedOut, Link.trailing] at h
          omega
      have hunderway : (r.underway (Link.clockedOut out announced)).clocked = _ := hclocked
      refine (value_finish hunderway).trans ((if_neg whole).trans ?_)
      rw [exchanged, if_neg (by simp), List.flatMap_singleton, hans,
        ← Link.take_clockedOut fits announced]
      rfl

end Sim.Radio

end RadioBoot
