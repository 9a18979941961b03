import RadioBoot.Port.Trace
import RadioBoot.Proofs.Link.Rings
import RadioBoot.Proofs.Link.Transfer

/-!
# Ready before exchange

The host clocks bytes only while the radio is ready, and the request line is asserted from before
the first byte of a transfer until after the last one.  The calls on a port show it: those of a
transfer form a bracket, which a ready answer opens and the release of the request line closes,
with nothing but exchanges in between, and no byte is exchanged outside of one (`InBrackets`).  How
many exchanges there are is decided by the lengths that the two sides declare, and one that fails is
the last (`Clocked`).

All this is so over any port, whatever it answers and wherever it fails
(`exchanges_in_brackets`).  There is one lemma for each call on the port and one for each operation
of a link (`makes_operate`).
-/

namespace RadioBoot

open Port (Call)

namespace Port.Call

/-! ## Calls -/

/-- An exchange that passed, given by the byte that went out and the one that came in. -/
def passed (x : UInt8 × UInt8) : Call := .exchange x.1 (.ok x.2)

/-- Whether a call has no place inside of a transfer: it is no exchange, and it does not find the
radio ready. -/
def isAside : Call → Bool
  | .exchange .. => false
  | .isReady answer => !answer
  | _ => true

/-- Whether a call finds the radio ready; this opens a transfer. -/
def opens : Call → Bool
  | .isReady answer => answer
  | _ => false

/-- Whether a call is an exchange that fails. -/
def fails : Call → Bool
  | .exchange _ (.error _) => true
  | _ => false

/-- The exchanges of a transfer that sends a frame of declared length `len`: as many as the longer
of the two sides needs, or up to the first that fails. -/
inductive Clocked (len : UInt8) : List Call → Prop
  | /-- The second byte that comes in is the length that the radio announces. -/
    whole (first status : UInt8) {announced : UInt8} {rest : List (UInt8 × UInt8)} :
      rest.length = min maxPayload (max announced.toNat (len.toNat - 1)) →
      Clocked len
        (.exchange len (.ok status) :: .exchange first (.ok announced) :: rest.map passed)
  | broken (before : List (UInt8 × UInt8)) (out : UInt8) (e : PortError) :
      Clocked len (before.map passed ++ [.exchange out (.error e)])

/-- The calls of a transfer with these exchanges. -/
def bracket (exchanges : List Call) : List Call :=
  [.isReady true, .setRequest true] ++ exchanges ++ [.setRequest false]

/-- Calls made in the right order: every exchange is in the bracket of a transfer. -/
inductive InBrackets : List Call → Prop
  | start : InBrackets []
  | aside {calls : List Call} {c : Call} :
      InBrackets calls → c.isAside = true → InBrackets (calls ++ [c])
  | transfer {calls exchanges : List Call} {len : UInt8} :
      InBrackets calls → Clocked len exchanges → InBrackets (calls ++ bracket exchanges)

/-- The calls that assert the request line once, or none. -/
def asking (once : Bool) : List Call := if once then [.setRequest true] else []

variable {calls : List Call}

theorem InBrackets.asides {more : List Call} (h : InBrackets calls)
    (asides : ∀ c ∈ more, c.isAside = true) : InBrackets (calls ++ more) := by
  induction more generalizing calls with
  | nil => rwa [List.append_nil]
  | cons c rest ih =>
      rw [← List.singleton_append, ← List.append_assoc]
      exact ih (.aside h (asides c (by simp))) fun c hc ↦ asides c (List.mem_cons_of_mem _ hc)

theorem InBrackets.asking (h : InBrackets calls) (once : Bool) :
    InBrackets (calls ++ asking once) := by
  refine h.asides fun c hc ↦ ?_
  rw [Call.asking] at hc
  split at hc
  · obtain rfl := List.mem_singleton.mp hc
    rfl
  · exact absurd hc (by simp)

@[simp] theorem opens_asking (once : Bool) : (asking once).countP opens = 0 := by
  cases once <;> rfl

/-- Exchanges open no transfer. -/
theorem opens_clocked {len : UInt8} {exchanges : List Call} (h : Clocked len exchanges) :
    exchanges.countP opens = 0 := by
  have hpassed (xs : List (UInt8 × UInt8)) : (xs.map passed).countP opens = 0 := by
    rw [List.countP_map, List.countP_eq_zero]
    exact fun _ _ ↦ Bool.false_ne_true
  cases h with
  | whole =>
      rw [List.countP_cons, List.countP_cons, hpassed]
      rfl
  | broken =>
      rw [List.countP_append, hpassed]
      rfl

end Port.Call

/-! ## Calls of a link -/

namespace Link

open Port.Call (asking bracket passed opens Clocked InBrackets)

variable {P : Type}

/-- What can be done with a link. -/
inductive Operation where
  | send (f : Frame)
  | poll
  | tryReceive
  | flush
  | pinReset

def operate [Port P] (l : Link P) : Operation → Link P
  | .send f => (l.send f).2
  | .poll => l.poll.2
  | .tryReceive => l.tryReceive.2
  | .flush => l.flush
  | .pinReset => l.pinReset

/-- `Makes l op calls`: what the operation may call on the port of `l`.  A turn of the link looks at
the ready line, unless there is no room for a received frame, and runs a transfer just when the
radio is ready. -/
inductive Makes (l : Link P) : Operation → List Call → Prop
  | send (f : Frame) (ask : Bool) : Makes l (.send f) (asking ask)
  | suspended : l.rx.isFull = true → Makes l .poll []
  | notReady (ask : Bool) : l.rx.isFull = false → Makes l .poll (.isReady false :: asking ask)
  | transfer {exchanges : List Call} (ask : Bool) : l.rx.isFull = false →
      Clocked (l.tx.dequeue.1.getD .empty).len exchanges →
      Makes l .poll (bracket exchanges ++ asking ask)
  | tryReceive {calls : List Call} (ask : Bool) :
      Makes l .poll calls → Makes l .tryReceive (calls ++ asking ask)
  | flush : Makes l .flush []
  | pinReset : Makes l .pinReset [.pulseReset, .setRequest false, .delay bootDelay]

namespace Makes

variable {l : Link P} {op : Operation} {calls before : List Call}

/-- No operation runs more than one transfer. -/
theorem opens_le (h : Makes l op calls) : calls.countP opens ≤ 1 := by
  induction h with
  | send f ask => simp
  | suspended => simp
  | notReady ask =>
      rw [List.countP_cons, Call.opens_asking]
      exact Nat.zero_le _
  | transfer ask _ clocked =>
      simp only [bracket, List.countP_append, Call.opens_clocked clocked, Call.opens_asking]
      exact Nat.le_refl 1
  | tryReceive ask _ ih => rwa [List.countP_append, Call.opens_asking]
  | flush => simp
  | pinReset => exact Nat.zero_le _

/-- What an operation calls keeps the exchanges in brackets. -/
theorem inBrackets (h : Makes l op calls) (hb : InBrackets before) :
    InBrackets (before ++ calls) := by
  induction h with
  | send f ask => exact hb.asking ask
  | suspended => rwa [List.append_nil]
  | notReady ask =>
      rw [← List.singleton_append, ← List.append_assoc]
      exact (hb.aside rfl).asking ask
  | transfer ask _ clocked =>
      rw [← List.append_assoc]
      exact (hb.transfer clocked).asking ask
  | tryReceive ask _ ih =>
      rw [← List.append_assoc]
      exact ih.asking ask
  | flush => rwa [List.append_nil]
  | pinReset => exact hb.asides (by simp [Call.isAside])

end Makes

variable [Port P] (l : Link (Port.Traced P))

/-! ## Calls on the port -/

@[simp] theorem calls_exchange (b : UInt8) :
    (l.exchange b).2.port.calls = l.port.calls ++ [.exchange b (l.exchange b).1] :=
  Port.Traced.calls_after _ _ _

@[simp] theorem calls_isReady :
    l.isReady.2.port.calls = l.port.calls ++ [.isReady l.isReady.1] :=
  Port.Traced.calls_after _ _ _

@[simp] theorem calls_setRequest (on : Bool) :
    (l.setRequest on).port.calls = l.port.calls ++ [.setRequest on] :=
  Port.Traced.calls_after _ _ _

@[simp] theorem calls_pulseReset : l.pulseReset.port.calls = l.port.calls ++ [.pulseReset] :=
  Port.Traced.calls_after _ _ _

@[simp] theorem calls_delay (ms : UInt32) :
    (l.delay ms).port.calls = l.port.calls ++ [.delay ms] :=
  Port.Traced.calls_after _ _ _

theorem calls_announce : ∃ ask, l.announce.port.calls = l.port.calls ++ asking ask := by
  rw [announce]
  split
  · exact ⟨true, l.calls_setRequest true⟩
  · exact ⟨false, (List.append_nil _).symm⟩

/-! ## Transfers -/

/-- Bytes are exchanged one after the other, all of them or up to the first that fails. -/
theorem calls_exchangeAll (bytes : List UInt8) :
    ∀ l : Link (Port.Traced P),
      (∃ replies, (l.exchangeAll bytes).1 = .ok replies ∧ replies.length = bytes.length ∧
          (l.exchangeAll bytes).2.port.calls =
            l.port.calls ++ (bytes.zip replies).map passed) ∨
        ∃ e, (l.exchangeAll bytes).1 = .error e ∧ ∃ (xs : List (UInt8 × UInt8)) (out : UInt8),
          (l.exchangeAll bytes).2.port.calls =
            l.port.calls ++ (xs.map passed ++ [.exchange out (.error e)]) := by
  induction bytes with
  | nil =>
      intro l
      exact .inl ⟨[], rfl, rfl, (List.append_nil _).symm⟩
  | cons b rest ih =>
      intro l
      have hfirst := l.calls_exchange b
      rw [exchangeAll]
      generalize l.exchange b = x at hfirst
      rcases x with ⟨e | reply, l'⟩
      · exact .inr ⟨e, rfl, [], b, hfirst⟩
      · dsimp only at hfirst ⊢
        have hrest := ih l'
        generalize l'.exchangeAll rest = y at hrest
        rcases y with ⟨e | replies, l''⟩
        · obtain ⟨e', he, xs, out, hcalls⟩ := hrest.resolve_left (by simp)
          obtain rfl := Except.error.inj he
          refine .inr ⟨e, rfl, (b, reply) :: xs, out, ?_⟩
          rw [hcalls, hfirst, List.append_assoc]
          rfl
        · obtain ⟨replies', hreplies, hlen, hcalls⟩ := hrest.resolve_right (by simp)
          obtain rfl := Except.ok.inj hreplies
          refine .inl ⟨reply :: replies, rfl, ?_, ?_⟩
          · rw [List.length_cons, List.length_cons, hlen]
          · rw [hcalls, hfirst, List.append_assoc]
            rfl

/-- The first two bytes that a transfer clocks out. -/
theorem clockedOut_eq (out : Frame) (announced : UInt8) :
    clockedOut out announced =
      out.len :: out.room.headD 0 :: (out.room.tail ++ [0]).take (trailing out announced) := by
  obtain ⟨b, rest, hroom, _⟩ := out.exists_room
  rw [clockedOut, hroom]
  rfl

/-- There are as many bytes behind them as either side asks for. -/
theorem length_behind (out : Frame) (announced : UInt8) :
    ((out.room.tail ++ [0]).take (trailing out announced)).length = trailing out announced := by
  have htotal := length_clockedOut out announced
  rw [clockedOut_eq, List.length_cons, List.length_cons] at htotal
  omega

/-- Clocking a frame makes the exchanges of a transfer and calls nothing else.  If none fails, what
comes in is the status, the announced length and then the bytes behind it. -/
theorem clock_spec (out : Frame) :
    (∃ status announced rest,
        (l.clock out).1 = .ok (.zeroed status (.ofNat (min announced.toNat maxPayload)) rest) ∧
        rest.length = trailing out announced ∧
        (l.clock out).2.port.calls = l.port.calls ++
          ((clockedOut out announced).zip (status :: announced :: rest)).map passed) ∨
      ∃ e, (l.clock out).1 = .error e ∧ ∃ (xs : List (UInt8 × UInt8)) (b : UInt8),
        (l.clock out).2.port.calls =
          l.port.calls ++ (xs.map passed ++ [.exchange b (.error e)]) := by
  have hstatus := l.calls_exchange out.len
  rw [clock]
  generalize l.exchange out.len = x at hstatus
  rcases x with ⟨e | status, l₁⟩
  · exact .inr ⟨e, rfl, [], out.len, hstatus⟩
  have hlength := l₁.calls_exchange (out.room.headD 0)
  dsimp only at hstatus ⊢
  generalize l₁.exchange (out.room.headD 0) = x at hlength
  rcases x with ⟨e | announced, l₂⟩
  · refine .inr ⟨e, rfl, [(out.len, status)], out.room.headD 0, ?_⟩
    rw [hlength, hstatus, List.append_assoc]
    rfl
  have hnoted : (if maxPayload < announced.toNat then l₂.note (truncating announced)
      else l₂).port = l₂.port := by split <;> rfl
  dsimp only at hlength ⊢
  generalize (if maxPayload < announced.toNat then l₂.note (truncating announced) else l₂) = l₃
    at hnoted
  have hrest := calls_exchangeAll ((out.room.tail ++ [0]).take (trailing out announced)) l₃
  rw [length_behind, hnoted, hlength, hstatus] at hrest
  generalize l₃.exchangeAll ((out.room.tail ++ [0]).take (trailing out announced)) = x at hrest
  rcases x with ⟨e | replies, l₄⟩
  · obtain ⟨e', he, xs, b, hcalls⟩ := hrest.resolve_left (by simp)
    obtain rfl := Except.error.inj he
    refine .inr ⟨e, rfl, (out.len, status) :: (out.room.headD 0, announced) :: xs, b, ?_⟩
    rw [hcalls, List.append_assoc, List.append_assoc]
    rfl
  · obtain ⟨replies', hreplies, hxs, hcalls⟩ := hrest.resolve_right (by simp)
    obtain rfl := Except.ok.inj hreplies
    refine .inl ⟨status, announced, replies, rfl, hxs, ?_⟩
    change l₄.port.calls = _
    rw [hcalls, clockedOut_eq, List.append_assoc, List.append_assoc]
    rfl

/-- In a transfer the oldest waiting frame is clocked, behind the assertion of the request line. -/
theorem clockNext_spec :
    (∃ status announced rest,
        l.clockNext.1 = .ok (.zeroed status (.ofNat (min announced.toNat maxPayload)) rest) ∧
        rest.length = trailing (l.tx.dequeue.1.getD .empty) announced ∧
        l.clockNext.2.port.calls = l.port.calls ++ [.setRequest true] ++
          ((clockedOut (l.tx.dequeue.1.getD .empty) announced).zip
            (status :: announced :: rest)).map passed) ∨
      ∃ e, l.clockNext.1 = .error e ∧ ∃ (xs : List (UInt8 × UInt8)) (b : UInt8),
        l.clockNext.2.port.calls = l.port.calls ++ [.setRequest true] ++
          (xs.map passed ++ [.exchange b (.error e)]) := by
  have hclock := clock_spec ({ l with tx := l.tx.dequeue.2 }.setRequest true)
    (l.tx.dequeue.1.getD .empty)
  rw [calls_setRequest] at hclock
  exact hclock

/-- The exchanges of a transfer are as many as the two lengths ask for, or end with a failure. -/
theorem calls_clockNext :
    ∃ exchanges, l.clockNext.2.port.calls = l.port.calls ++ [.setRequest true] ++ exchanges ∧
      Clocked (l.tx.dequeue.1.getD .empty).len exchanges := by
  rcases l.clockNext_spec with ⟨status, announced, rest, -, hlen, hcalls⟩ | ⟨e, -, xs, b, hcalls⟩
  · refine ⟨_, hcalls, ?_⟩
    rw [clockedOut_eq]
    refine .whole ((l.tx.dequeue.1.getD .empty).room.headD 0) status ?_
    rw [List.length_zipWith, length_behind, hlen, Nat.min_self]
    rfl
  · exact ⟨_, hcalls, .broken xs b e⟩

/-- A transfer asserts the request line before its exchanges and releases it behind them; if all
has gone well, it may be asserted for the next transfer. -/
theorem calls_transfer :
    ∃ exchanges ask, l.transfer.2.port.calls =
        l.port.calls ++ [.setRequest true] ++ exchanges ++ [.setRequest false] ++ asking ask ∧
      Clocked (l.tx.dequeue.1.getD .empty).len exchanges := by
  obtain ⟨exchanges, hcalls, hclocked⟩ := l.calls_clockNext
  rcases l.transfer_cases with ⟨e, -, h⟩ | ⟨f, -, h⟩
  · refine ⟨exchanges, false, ?_, hclocked⟩
    rw [h, port_note, calls_setRequest, hcalls]
    exact (List.append_nil _).symm
  · obtain ⟨ask, hannounced⟩ := (l.clockNext.2.setRequest false).calls_announce
    refine ⟨exchanges, ask, ?_, hclocked⟩
    rw [h, port_deliver, hannounced, calls_setRequest, hcalls]

/-! ## Operations -/

theorem makes_send (f : Frame) :
    ∃ calls, (l.send f).2.port.calls = l.port.calls ++ calls ∧ Makes l (.send f) calls := by
  have silent : ∃ calls, l.port.calls = l.port.calls ++ calls ∧ Makes l (.send f) calls :=
    ⟨asking false, (List.append_nil _).symm, .send f false⟩
  rcases l.send_cases f with ⟨-, h⟩ | ⟨-, -, h⟩ | ⟨-, -, h⟩
  · rwa [h]
  · rwa [h]
  · rw [h]
    dsimp only
    split
    · exact silent
    · exact ⟨asking true, calls_setRequest _ true, .send f true⟩

theorem makes_poll :
    ∃ calls, l.poll.2.port.calls = l.port.calls ++ calls ∧ Makes l .poll calls := by
  have hlooked := l.calls_isReady
  rcases l.poll_cases with ⟨full, h⟩ | ⟨room, busy, h⟩ | ⟨room, ready, h⟩
  · rw [h]
    exact ⟨[], (List.append_nil _).symm, .suspended full⟩
  · rw [busy] at hlooked
    rw [h]
    dsimp only
    split
    · exact ⟨_, hlooked, .notReady false room⟩
    · refine ⟨_, ?_, .notReady true room⟩
      rw [calls_setRequest, hlooked, List.append_assoc]
      rfl
  · obtain ⟨exchanges, ask, hcalls, hclocked⟩ := l.isReady.2.calls_transfer
    rw [ready] at hlooked
    refine ⟨_, ?_, .transfer ask room hclocked⟩
    rw [h, hcalls, hlooked]
    simp only [bracket, List.append_assoc, List.cons_append, List.nil_append]

theorem makes_tryReceive :
    ∃ calls, l.tryReceive.2.port.calls = l.port.calls ++ calls ∧ Makes l .tryReceive calls := by
  obtain ⟨calls, hturn, hmakes⟩ : ∃ calls, (if l.rx.isFull then l else l.poll.2).port.calls =
      l.port.calls ++ calls ∧ Makes l .poll calls := by
    split
    · rename_i full
      exact ⟨[], (List.append_nil _).symm, .suspended full⟩
    · exact l.makes_poll
  rw [tryReceive]
  generalize (if l.rx.isFull then l else l.poll.2) = turn at hturn
  obtain ⟨ask, hannounced⟩ := { turn with rx := turn.rx.dequeue.2 }.calls_announce
  refine ⟨_, ?_, .tryReceive ask hmakes⟩
  rw [hannounced, hturn, List.append_assoc]

/-- What an operation calls on the port. -/
theorem makes_operate (op : Operation) :
    ∃ calls, (l.operate op).port.calls = l.port.calls ++ calls ∧ Makes l op calls := by
  cases op with
  | send f => exact l.makes_send f
  | poll => exact l.makes_poll
  | tryReceive => exact l.makes_tryReceive
  | flush => exact ⟨[], (List.append_nil _).symm, .flush⟩
  | pinReset =>
      refine ⟨_, ?_, .pinReset⟩
      simp [operate, pinReset, flush]

/-! ## Runs -/

/-- Whatever is done with a link, every exchange is in a bracket. -/
theorem inBrackets_foldl (ops : List Operation) :
    ∀ {l : Link (Port.Traced P)}, InBrackets l.port.calls →
      InBrackets (ops.foldl operate l).port.calls := by
  induction ops with
  | nil =>
      intro l h
      exact h
  | cons op rest ih =>
      intro l h
      obtain ⟨calls, hcalls, hmakes⟩ := l.makes_operate op
      exact ih (hcalls ▸ hmakes.inBrackets h)

/-- Over any port, however it answers and wherever it fails, every run of a link keeps each exchange
in the bracket of a transfer.  What each operation calls is given by `Makes`: a transfer, if it runs
one, makes as many exchanges as the frame that is sent and the length that is announced ask for, or
up to the first that fails; there is one transfer at most; and while there is no room for a received
frame, a turn of the link calls nothing. -/
theorem exchanges_in_brackets (port : P) (ops : List Operation) :
    let l := ops.foldl operate (fresh (Port.Traced.fresh port))
    InBrackets l.port.calls ∧
      (∀ op, ∃ calls, (l.operate op).port.calls = l.port.calls ++ calls ∧ Makes l op calls ∧
        calls.countP opens ≤ 1) ∧
      (l.rx.isFull = true → (l.operate .poll).port.calls = l.port.calls) := by
  intro l
  refine ⟨inBrackets_foldl ops .start, fun op ↦ ?_, fun full ↦ ?_⟩
  · obtain ⟨calls, hcalls, hmakes⟩ := l.makes_operate op
    exact ⟨calls, hcalls, hmakes, hmakes.opens_le⟩
  · rw [operate, poll, if_pos full]

/-- Once three of the events that a radio has pending have been received, a turn of the link calls
nothing. -/
theorem exchanges_in_brackets_full :
    let radio : Sim.Radio := { pending := [[2, 0x8A, 1], [40, 0x8C, 8], [1, 0x86], [2, 0x8A, 2]] }
    let l := [.send .empty, .poll, .poll, .poll].foldl operate (fresh (Port.Traced.fresh radio))
    l.rx.isFull = true ∧ (l.operate .poll).port.calls = l.port.calls ∧
      InBrackets l.port.calls := by
  intro radio l
  have full : l.rx.isFull = true := by decide +kernel
  obtain ⟨hbrackets, -, hcalls⟩ :=
    exchanges_in_brackets radio [.send .empty, .poll, .poll, .poll]
  exact ⟨full, hcalls full, hbrackets⟩

end Link

end RadioBoot
