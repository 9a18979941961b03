import RadioBoot.Proofs.Frame.Travel

/-!
# The grammar of events

What a report looks like is said here by how it is written: `Reports` has one case for each kind of
event, with the parameters in their places, words with their least significant byte first, and what
is not looked at behind them.  Reading a frame accepts exactly this (`decode_eq_ok_iff`), and what
is refused declares nothing, or too few parameters for an opcode that is known
(`decode_eq_error_iff`).  A frame has no more bytes for data than a report has room for, so no data
is lost (`pipeData_of_fits`).
-/

namespace RadioBoot

/-! ## Words and maps in their places -/

/-- Where there are enough bytes, there is a first one. -/
theorem exists_cons_of_le {n : Nat} {bs : List UInt8} (h : n + 1 ≤ bs.length) :
    ∃ b rest, bs = b :: rest ∧ n ≤ rest.length := by
  obtain ⟨b, rest, rfl⟩ := List.exists_cons_of_length_pos (Nat.lt_of_lt_of_le n.succ_pos h)
  exact ⟨b, rest, rfl, Nat.le_of_succ_le_succ h⟩

namespace Timing

/-- The terms of a connection as they are written: three words, least significant byte first. -/
def bytes (t : Timing) : List UInt8 :=
  [Word.low t.interval, Word.high t.interval, Word.low t.latency, Word.high t.latency,
    Word.low t.timeout, Word.high t.timeout]

@[simp] theorem length_bytes (t : Timing) : t.bytes.length = 6 := rfl

@[simp] theorem ofBytes_bytes (t : Timing) : ofBytes t.bytes = t := by
  simp [ofBytes, bytes]

/-- Any six bytes write some terms. -/
theorem exists_bytes (bs : List UInt8) (h : 6 ≤ bs.length) :
    ∃ (t : Timing) (rest : List UInt8), bs = t.bytes ++ rest := by
  obtain ⟨i₀, bs, rfl, h₅⟩ := exists_cons_of_le h
  obtain ⟨i₁, bs, rfl, h₄⟩ := exists_cons_of_le h₅
  obtain ⟨l₀, bs, rfl, h₃⟩ := exists_cons_of_le h₄
  obtain ⟨l₁, bs, rfl, h₂⟩ := exists_cons_of_le h₃
  obtain ⟨t₀, bs, rfl, h₁⟩ := exists_cons_of_le h₂
  obtain ⟨t₁, bs, rfl, -⟩ := exists_cons_of_le h₁
  exact ⟨⟨Word.ofBytes i₀ i₁, Word.ofBytes l₀ l₁, Word.ofBytes t₀ t₁⟩, bs, by simp [bytes]⟩

end Timing

namespace PipeMap

@[simp] theorem ofBytes_bytes (m : PipeMap) : ofBytes m.bytes = m := by
  ext1
  simp [ofBytes, overlay, m.length_bytes, List.take_of_length_le]

/-- Any eight bytes write a map. -/
theorem exists_bytes (bs : List UInt8) (h : 8 ≤ bs.length) :
    ∃ (m : PipeMap) (rest : List UInt8), bs = m.bytes ++ rest :=
  ⟨⟨bs.take 8, List.length_take_of_le h⟩, bs.drop 8, (List.take_append_drop 8 bs).symm⟩

end PipeMap

namespace Event

/-! ## What a report looks like -/

/-- How many parameters an event needs, by its opcode; nothing for an opcode that names no event. -/
def minimum? : UInt8 → Option Nat
  | 0x81 => some 3
  | 0x84 => some 2
  | 0x85 => some 14
  | 0x86 => some 2
  | 0x87 => some 1
  | 0x88 => some 16
  | 0x89 => some 6
  | 0x8A => some 1
  | 0x8B => some 1
  | 0x8C => some 1
  | 0x8D => some 2
  | _ => none

/-- `Reports opcode params e`: behind this opcode these parameters report `e`. -/
inductive Reports : UInt8 → List UInt8 → Event → Prop
  | deviceStarted (mode fault credit : UInt8) (rest : List UInt8) :
      Reports 0x81 (mode :: fault :: credit :: rest)
        (.deviceStarted (.ofByte mode) (fault != 0) credit)
  | commandResponse (command status : UInt8) (rest : List UInt8) :
      Reports 0x84 (command :: status :: rest) (.commandResponse command status)
  | connected (addressType : UInt8) (address : List UInt8) (timing : Timing) (accuracy : UInt8)
      (rest : List UInt8) : address.length = 6 →
      Reports 0x85 (addressType :: (address ++ (timing.bytes ++ accuracy :: rest)))
        (.connected addressType address timing accuracy)
  | disconnected (radioStatus linkStatus : UInt8) (rest : List UInt8) :
      Reports 0x86 (radioStatus :: linkStatus :: rest) (.disconnected radioStatus linkStatus)
  | bondStatus (status : UInt8) (rest : List UInt8) :
      Reports 0x87 (status :: rest) (.bondStatus status)
  | pipeStatus (opened closed : PipeMap) (rest : List UInt8) :
      Reports 0x88 (opened.bytes ++ (closed.bytes ++ rest)) (.pipeStatus opened closed)
  | timing (timing : Timing) (rest : List UInt8) :
      Reports 0x89 (timing.bytes ++ rest) (.timing timing)
  | dataCredit (credit : UInt8) (rest : List UInt8) :
      Reports 0x8A (credit :: rest) (.dataCredit credit)
  | dataAck (pipe : UInt8) (rest : List UInt8) : Reports 0x8B (pipe :: rest) (.dataAck pipe)
  | /-- All that is behind the pipe is data. -/
    dataReceived (pipe : UInt8) (data : List UInt8) :
      Reports 0x8C (pipe :: data) (.dataReceived pipe data)
  | pipeError (pipe code : UInt8) (data : List UInt8) :
      Reports 0x8D (pipe :: code :: data) (.pipeError pipe code data)
  | /-- An opcode that names no event is reported as it is. -/
    unknown {opcode : UInt8} (params : List UInt8) :
      minimum? opcode = none → Reports opcode params (.unknown opcode)

variable {opcode : UInt8} {params : List UInt8} {e : Event}

theorem reports_unknown_iff {known : UInt8} :
    Reports opcode params (.unknown known) ↔ opcode = known ∧ minimum? known = none := by
  constructor
  · rintro ⟨⟩
    exact ⟨rfl, ‹_›⟩
  · rintro ⟨rfl, hnone⟩
    exact .unknown params hnone

theorem Reports.params_dataReceived {pipe : UInt8} {data : List UInt8}
    (h : Reports opcode params (.dataReceived pipe data)) : params = pipe :: data := by
  cases h
  rfl

theorem Reports.params_pipeError {pipe code : UInt8} {data : List UInt8}
    (h : Reports opcode params (.pipeError pipe code data)) : params = pipe :: code :: data := by
  cases h
  rfl

/-! ## Reading parameters -/

theorem needs_of_le {n : Nat} (enough : n ≤ params.length) (build : (Nat → UInt8) → Event) :
    needs opcode n params build = .ok (build fun i ↦ params.getD i 0) :=
  if_neg (Nat.not_lt_of_le enough)

theorem needs_of_lt {n : Nat} (short : params.length < n) (build : (Nat → UInt8) → Event) :
    needs opcode n params build = .error (.truncated opcode params.length) :=
  if_pos short

/-- What is written is read, as far as it comes in a frame. -/
theorem ofParams_of_reports (h : Reports opcode params e) (fits : params.length < maxPayload) :
    ofParams opcode params = .ok e := by
  cases h with
  | connected addressType address timing accuracy rest hlen =>
      have haddress : (address ++ (timing.bytes ++ accuracy :: rest)).take 6 = address :=
        List.take_left' hlen
      have hbehind : (address ++ (timing.bytes ++ accuracy :: rest)).drop 6 =
        timing.bytes ++ accuracy :: rest := List.drop_left' hlen
      have haccuracy : (address ++ (timing.bytes ++ accuracy :: rest)).getD 12 0 = accuracy := by
        rw [List.getD_eq_getElem?_getD, List.getElem?_append_right (by omega), hlen]
        rfl
      rw [ofParams, needs_of_le (by simp [hlen]; omega)]
      simp only [List.drop_succ_cons, List.drop_zero, List.getD_cons_zero, List.getD_cons_succ,
        haddress, hbehind, haccuracy]
      rw [List.take_left' timing.length_bytes, Timing.ofBytes_bytes]
  | pipeStatus opened closed rest =>
      rw [ofParams, needs_of_le (by simp [opened.length_bytes, closed.length_bytes]; omega),
        List.take_left' opened.length_bytes, List.drop_left' opened.length_bytes,
        List.take_left' closed.length_bytes, PipeMap.ofBytes_bytes, PipeMap.ofBytes_bytes]
  | timing timing rest =>
      rw [ofParams, needs_of_le (by simp), List.take_left' timing.length_bytes,
        Timing.ofBytes_bytes]
  | dataReceived pipe data =>
      have hdata : pipeData data = data := by
        refine pipeData_of_fits ?_
        rw [List.length_cons] at fits
        exact Nat.le_of_lt_succ (Nat.lt_of_succ_lt_succ fits)
      rw [ofParams, needs_of_le (by simp), List.drop_succ_cons, List.drop_zero, hdata]
      rfl
  | pipeError pipe code data =>
      have hdata : pipeData data = data := by
        refine pipeData_of_fits ?_
        rw [List.length_cons, List.length_cons] at fits
        exact Nat.le_of_lt (Nat.lt_of_succ_lt_succ (Nat.lt_of_succ_lt_succ fits))
      rw [ofParams, needs_of_le (by simp), List.drop_succ_cons, List.drop_succ_cons,
        List.drop_zero, hdata]
      rfl
  | unknown _ hnone =>
      unfold ofParams
      split <;> first
        | exact absurd hnone (by decide)
        | rfl
  | _ =>
      rw [ofParams, needs_of_le (by simp)]
      rfl

/-- With too few parameters for it, an opcode that is known is refused. -/
theorem ofParams_of_short {n : Nat} (known : minimum? opcode = some n)
    (short : params.length < n) :
    ofParams opcode params = .error (.truncated opcode params.length) := by
  unfold minimum? at known
  split at known <;> simp only [Option.some.injEq, reduceCtorEq] at known <;> subst known <;>
    rw [ofParams, needs_of_lt short]

/-- With enough of them, the parameters of any opcode report something. -/
theorem exists_reports (enough : ∀ n, minimum? opcode = some n → n ≤ params.length) :
    ∃ e, Reports opcode params e := by
  cases known : minimum? opcode with
  | none => exact ⟨_, .unknown params known⟩
  | some n =>
      have enough := enough n known
      unfold minimum? at known
      split at known <;> simp only [Option.some.injEq, reduceCtorEq] at known <;> subst known
      · obtain ⟨mode, _, rfl, h₂⟩ := exists_cons_of_le enough
        obtain ⟨fault, _, rfl, h₁⟩ := exists_cons_of_le h₂
        obtain ⟨credit, rest, rfl, -⟩ := exists_cons_of_le h₁
        exact ⟨_, .deviceStarted mode fault credit rest⟩
      · obtain ⟨command, _, rfl, h₁⟩ := exists_cons_of_le enough
        obtain ⟨status, rest, rfl, -⟩ := exists_cons_of_le h₁
        exact ⟨_, .commandResponse command status rest⟩
      · obtain ⟨addressType, ps, rfl, h₁₃⟩ := exists_cons_of_le enough
        obtain ⟨timing, ps', hps, h₇⟩ : ∃ timing ps', ps.drop 6 = Timing.bytes timing ++ ps' ∧
            1 ≤ ps'.length := by
          have hlen : (ps.drop 6).length = ps.length - 6 := List.length_drop
          obtain ⟨timing, ps', hps⟩ := Timing.exists_bytes (ps.drop 6) (by omega)
          rw [hps, List.length_append, timing.length_bytes] at hlen
          exact ⟨timing, ps', hps, by omega⟩
        obtain ⟨accuracy, rest, rfl, -⟩ := exists_cons_of_le h₇
        rw [← List.take_append_drop 6 ps, hps]
        exact ⟨_, .connected addressType (ps.take 6) timing accuracy rest
          (List.length_take_of_le (by omega))⟩
      · obtain ⟨radioStatus, _, rfl, h₁⟩ := exists_cons_of_le enough
        obtain ⟨linkStatus, rest, rfl, -⟩ := exists_cons_of_le h₁
        exact ⟨_, .disconnected radioStatus linkStatus rest⟩
      · obtain ⟨status, rest, rfl, -⟩ := exists_cons_of_le enough
        exact ⟨_, .bondStatus status rest⟩
      · obtain ⟨opened, ps, rfl⟩ := PipeMap.exists_bytes params (by omega)
        rw [List.length_append, opened.length_bytes] at enough
        obtain ⟨closed, rest, rfl⟩ := PipeMap.exists_bytes ps (by omega)
        exact ⟨_, .pipeStatus opened closed rest⟩
      · obtain ⟨timing, rest, rfl⟩ := Timing.exists_bytes _ enough
        exact ⟨_, .timing timing rest⟩
      · obtain ⟨credit, rest, rfl, -⟩ := exists_cons_of_le enough
        exact ⟨_, .dataCredit credit rest⟩
      · obtain ⟨pipe, rest, rfl, -⟩ := exists_cons_of_le enough
        exact ⟨_, .dataAck pipe rest⟩
      · obtain ⟨pipe, data, rfl, -⟩ := exists_cons_of_le enough
        exact ⟨_, .dataReceived pipe data⟩
      · obtain ⟨pipe, _, rfl, h₁⟩ := exists_cons_of_le enough
        obtain ⟨code, data, rfl, -⟩ := exists_cons_of_le h₁
        exact ⟨_, .pipeError pipe code data⟩

/-- Whatever comes in a frame behind an opcode, it is a report or there is too little of it. -/
theorem ofParams_cases (opcode : UInt8) (fits : params.length < maxPayload) :
    (∃ e, Reports opcode params e ∧ ofParams opcode params = .ok e) ∨
      ∃ n, minimum? opcode = some n ∧ params.length < n ∧
        ofParams opcode params = .error (.truncated opcode params.length) := by
  by_cases enough : ∀ n, minimum? opcode = some n → n ≤ params.length
  · obtain ⟨e, he⟩ := exists_reports enough
    exact .inl ⟨e, he, ofParams_of_reports he fits⟩
  · obtain ⟨n, known, short⟩ : ∃ n, minimum? opcode = some n ∧ params.length < n := by
      simpa using enough
    exact .inr ⟨n, known, short, ofParams_of_short known short⟩

/-! ## Reading frames -/

variable {f : Frame}

/-- A frame is read as what it reports. -/
theorem decode_eq_ok_iff :
    decode f = .ok e ↔ ∃ opcode, f.opcode? = some opcode ∧ Reports opcode f.params e := by
  rw [decode]
  cases f.opcode? with
  | none => simp
  | some opcode =>
      dsimp only
      constructor
      · intro h
        rcases ofParams_cases opcode f.length_params_lt with ⟨e', he', hok⟩ | ⟨_, -, -, herror⟩
        · obtain rfl := Except.ok.inj (hok.symm.trans h)
          exact ⟨opcode, rfl, he'⟩
        · exact absurd (herror.symm.trans h) (by simp)
      · rintro ⟨_, ⟨⟩, he⟩
        exact ofParams_of_reports he f.length_params_lt

/-- A frame is refused because it declares nothing, or too little for what it should report. -/
theorem decode_eq_error_iff {x : CodecError} :
    decode f = .error x ↔ x = .empty ∧ f.len = 0 ∨
      ∃ opcode n, x = .truncated opcode f.params.length ∧ f.opcode? = some opcode ∧
        minimum? opcode = some n ∧ f.params.length < n := by
  rw [decode, ← Frame.opcode?_eq_none_iff]
  cases f.opcode? with
  | none => simp [eq_comm]
  | some opcode =>
      dsimp only
      constructor
      · intro h
        rcases ofParams_cases opcode f.length_params_lt with ⟨_, -, hok⟩ | ⟨n, known, short, herror⟩
        · exact absurd (hok.symm.trans h) (by simp)
        · exact .inr ⟨opcode, n, Except.error.inj (h.symm.trans herror), rfl, known, short⟩
      · rintro (⟨-, ⟨⟩⟩ | ⟨_, n, rfl, ⟨⟩, known, short⟩)
        exact ofParams_of_short known short

/-- What a frame says is decided by the bytes that travel. -/
theorem decode_congr {g : Frame} (h : f.bytes = g.bytes) : decode f = decode g := by
  rw [decode_eq_read, decode_eq_read, h]

/-- The data of a write is all of the frame but the opcode and the pipe. -/
theorem length_of_dataReceived {pipe : UInt8} {data : List UInt8}
    (h : decode f = .ok (.dataReceived pipe data)) : data.length + 2 = f.declared := by
  obtain ⟨opcode, hop, hreports⟩ := decode_eq_ok_iff.mp h
  rw [← Frame.length_params_of_opcode hop, hreports.params_dataReceived, List.length_cons]

/-- The data of a pipe error is all of the frame but the opcode, the pipe and the code. -/
theorem length_of_pipeError {pipe code : UInt8} {data : List UInt8}
    (h : decode f = .ok (.pipeError pipe code data)) : data.length + 3 = f.declared := by
  obtain ⟨opcode, hop, hreports⟩ := decode_eq_ok_iff.mp h
  rw [← Frame.length_params_of_opcode hop, hreports.params_pipeError, List.length_cons,
    List.length_cons]

/-- Reading accepts exactly the grammar of events.  A frame is refused if it declares nothing, or if
its opcode is known and has too few parameters.  An opcode that is not known is reported as it is,
whatever follows.  All other frames are read as the event whose fields are in their places, and all
that is behind the pipe of a write, or behind the code of a pipe error, is its data: it is never too
much for a report, and where the length byte is right it is all of the frame but the two or three
bytes before it.  What a frame is read as is decided by the bytes that travel. -/
theorem accepts_grammar (f : Frame) :
    (∀ x, decode f = .error x ↔ x = .empty ∧ f.len = 0 ∨
      ∃ opcode n, x = .truncated opcode f.params.length ∧ f.opcode? = some opcode ∧
        minimum? opcode = some n ∧ f.params.length < n) ∧
    (∀ opcode, decode f = .ok (.unknown opcode) ↔
      f.opcode? = some opcode ∧ minimum? opcode = none) ∧
    (∀ e, decode f = .ok e ↔ ∃ opcode, f.opcode? = some opcode ∧ Reports opcode f.params e) ∧
    (∀ pipe data, decode f = .ok (.dataReceived pipe data) →
      data.length ≤ 29 ∧ (f.len.toNat ≤ 31 → data.length + 2 = f.len.toNat)) ∧
    (∀ pipe code data, decode f = .ok (.pipeError pipe code data) →
      data.length ≤ 29 ∧ (f.len.toNat ≤ 31 → data.length + 3 = f.len.toNat)) ∧
    ∀ g : Frame, f.bytes = g.bytes → decode f = decode g := by
  have hdeclared : f.declared ≤ 31 := Nat.min_le_right _ _
  have hright (fits : f.len.toNat ≤ 31) : f.declared = f.len.toNat := Nat.min_eq_left fits
  refine ⟨fun x ↦ decode_eq_error_iff, fun opcode ↦ ?_, fun e ↦ decode_eq_ok_iff,
    fun pipe data h ↦ ?_, fun pipe code data h ↦ ?_, fun g ↦ decode_congr⟩
  · rw [decode_eq_ok_iff]
    simp only [reports_unknown_iff]
    constructor
    · rintro ⟨_, hop, rfl, hnone⟩
      exact ⟨hop, hnone⟩
    · rintro ⟨hop, hnone⟩
      exact ⟨opcode, hop, rfl, hnone⟩
  · have hlen := length_of_dataReceived h
    exact ⟨by omega, fun fits ↦ hlen.trans (hright fits)⟩
  · have hlen := length_of_pipeError h
    exact ⟨by omega, fun fits ↦ hlen.trans (hright fits)⟩

/-- A length byte that declares far too much, the longest frame there is, and a connection with one
parameter missing. -/
theorem accepts_grammar_longest :
    let overlong := Frame.ofBuffer 3 [255, 0x8C, 8, 7]
    let longest := Frame.ofBuffer 0 [31, 0x8D, 9, 0x81]
    let data := 7 :: List.replicate 28 0
    let zeros := List.replicate 28 0
    (decode overlong = .ok (.dataReceived 8 data) ∧ data.length ≤ 29) ∧
      (decode longest = .ok (.pipeError 9 0x81 zeros) ∧ zeros.length + 3 = longest.len.toNat) ∧
      decode (.ofBuffer 0 [14, 0x85]) = .error (.truncated 0x85 13) := by
  intro overlong longest data zeros
  have hover : decode overlong = .ok (.dataReceived 8 data) := by rfl
  have hlong : decode longest = .ok (.pipeError 9 0x81 zeros) := by rfl
  obtain ⟨-, -, -, hdata, -, -⟩ := accepts_grammar overlong
  obtain ⟨-, -, -, -, hzeros, -⟩ := accepts_grammar longest
  obtain ⟨hrefused, -⟩ := accepts_grammar (.ofBuffer 0 [14, 0x85])
  exact ⟨⟨hover, (hdata 8 data hover).1⟩, ⟨hlong, (hzeros 9 0x81 zeros hlong).2 (by decide)⟩,
    (hrefused _).mpr (.inr ⟨0x85, 14, rfl, rfl, rfl, by decide⟩)⟩

end Event

end RadioBoot
