import RadioBoot.Proofs.Image.Pages
import RadioBoot.Proofs.Update.Write
import RadioBoot.Sim.Flash
import RadioBoot.Sim.Radio

/-!
# A valid image is the image that was sent

No wrong image is ever declared valid.  Whatever the flash answers and whatever is written to the
control pipe in between, an update reaches the verdict `valid` only when the calls on the flash are
the pages of the announced image, in order and each once, and then one commit, all of them
successful (`flash_calls_of_valid`).

The invariant is `Faithful`: it says for each phase what the calls on the flash have been, given the
writes of the run.  While firmware comes in it is `Receiving`, which ties the calls, the page buffer
and the firmware together and changes its form once, when the last byte is in.
-/

namespace RadioBoot

open Flash (writes)

/-! ## What a run has been sent -/

namespace Visit

/-- The firmware that a write brings. -/
def firmware (v : Visit) : List UInt8 :=
  match v.before, v.request with
  | .receivingData, some (.packet data) => data
  | _, _ => []

/-- The image length that an accepted first packet declares. -/
def announced? (v : Visit) : Option UInt32 :=
  match v.before, v.request, v.after with
  | .idle, some (.packet (a :: b :: c :: d :: _)), .ready => some (Word.ofBytes32 a b c d)
  | _, _, _ => none

end Visit

/-- The packets received while firmware comes in, one after the other. -/
def firmware (visits : List Visit) : List UInt8 := visits.flatMap Visit.firmware

/-- The image length that has been accepted. -/
def announced? (visits : List Visit) : Option UInt32 := visits.findSome? Visit.announced?

@[simp] theorem firmware_append (visits : List Visit) (v : Visit) :
    firmware (visits ++ [v]) = firmware visits ++ v.firmware := by
  simp [firmware]

@[simp] theorem announced?_append (visits : List Visit) (v : Visit) :
    announced? (visits ++ [v]) = (announced? visits).or v.announced? := by
  simp [announced?, List.findSome?_append]

namespace Visit

/-- Only packets bring firmware. -/
theorem firmware_control (before after : Phase) (opcode : UInt8) (payload : List UInt8) :
    (Visit.mk before (some (.control opcode payload)) after).firmware = [] := by
  cases before <;> rfl

theorem announced?_of_control (before after : Phase) (opcode : UInt8) (payload : List UInt8) :
    (Visit.mk before (some (.control opcode payload)) after).announced? = none := by
  cases before <;> rfl

theorem firmware_of_ne {before : Phase} (h : before ≠ .receivingData) (r : Option Request)
    (after : Phase) : (Visit.mk before r after).firmware = [] := by
  cases before with
  | receivingData => exact absurd rfl h
  | _ => rfl

/-- Only the step from `idle` to `ready` announces. -/
theorem announced?_of_ne {before after : Phase} (h : before ≠ .idle ∨ after ≠ .ready)
    (r : Option Request) : (Visit.mk before r after).announced? = none := by
  cases hv : (Visit.mk before r after).announced? with
  | none => rfl
  | some len =>
      simp only [announced?] at hv
      split at hv
      · rcases h with h | h <;> exact absurd rfl h
      · exact absurd hv (by simp)

theorem announced?_self (p : Phase) (r : Option Request) : (Visit.mk p r p).announced? = none := by
  refine announced?_of_ne ?_ r
  cases p with
  | idle => exact .inr (by decide)
  | _ => exact .inl (by simp)

/-- While firmware comes in, what is ignored is no packet. -/
theorem ne_packet_of_ignored {request : Option Request}
    (h : ∀ r, request = some r → route .receivingData r = none) (data : List UInt8) :
    request ≠ some (.packet data) := by
  intro hpacket
  have hroute := h _ hpacket
  rw [route_receivingData_packet] at hroute
  exact absurd hroute (by simp)

/-- A write that is ignored brings nothing. -/
theorem firmware_of_ignored {p : Phase} {request : Option Request}
    (h : ∀ r, request = some r → route p r = none) : (Visit.mk p request p).firmware = [] := by
  simp only [firmware]
  split
  · exact absurd rfl (ne_packet_of_ignored h _)
  · rfl

end Visit

/-! ## The invariant -/

variable {page : Nat}

/-- While firmware comes in: the image holds all of it so far and more is to come; or it is whole,
and all its pages have been written. -/
inductive Receiving (img : Image page) (fw : List UInt8) (calls : List Flash.Call) : Prop
  | underway (pages : List (List UInt8)) : img.Holds pages fw → img.buffered < page →
      fw.length < img.len.toNat → calls = writes page 0 pages → Receiving img fw calls
  | whole : img.received = img.len → img.len.toNat ≤ fw.length →
      calls = writes page 0 (imagePages page (fw.take img.len.toNat)) → Receiving img fw calls

/-- The calls on the flash are those that the writes of a run account for, when these have announced
an image of length `len?` and brought the firmware `fw`. -/
inductive Faithful (len? : Option UInt32) (fw : List UInt8) (t : Transfer page)
    (calls : List Flash.Call) : Prop
  | idle : t.phase = .idle → len? = none → fw = [] → calls = [] → Faithful len? fw t calls
  | announced : t.phase = .ready ∨ t.phase = .receivingInit → len? = some t.image.len → fw = [] →
      calls = [] → t.image.Holds [] [] → t.image.buffered = 0 → 0 < t.image.len.toNat →
        Faithful len? fw t calls
  | receiving : t.phase = .receivingData → len? = some t.image.len → Receiving t.image fw calls →
      Faithful len? fw t calls
  | valid (len : UInt32) : t.phase = .validated .valid → len? = some len → len.toNat ≤ fw.length →
      calls = writes page 0 (imagePages page (fw.take len.toNat)) ++ [.commit (.ok ())] →
        Faithful len? fw t calls
  | /-- Nothing is promised about an image that was not declared valid. -/
    ended : t.phase = .validated .invalid ∨ t.phase = .failed ∨ t.phase.isTerminal = true →
      Faithful len? fw t calls

namespace Receiving

variable {img : Image page} {fw : List UInt8} {calls : List Flash.Call}

/-- While firmware comes in, the image is complete just when enough of it has come. -/
theorem isComplete_iff (h : Receiving img fw calls) :
    img.isComplete = true ↔ img.len.toNat ≤ fw.length := by
  rw [Image.isComplete_iff]
  cases h with
  | underway pages holds room more _ =>
      have hrec := holds.toNat_received more
      constructor
      · intro h
        rw [h] at hrec
        omega
      · intro h
        omega
  | whole done enough _ => exact ⟨fun _ ↦ enough, fun _ ↦ done⟩

variable {F : Type} [Flash F] {flash : Flash.Traced F} {t : Transfer page}

/-- Once all the bytes that count have been taken in, the image is finished; or it is not yet
complete.  Of the firmware `fw` only the bytes up to the announced length count. -/
theorem complete (pos : 0 < page) {pages : List (List UInt8)} {bytes : List UInt8}
    (holds : t.image.Holds pages bytes) (room : t.image.buffered < page)
    (hcalls : flash.calls = writes page 0 pages) (hbytes : bytes = fw.take t.image.len.toNat)
    (effects : List Effect) :
    (t.complete flash effects).transfer.phase = .failed ∨
      (t.complete flash effects).transfer.phase = .receivingData ∧
      (t.complete flash effects).transfer.image.len = t.image.len ∧
      Receiving (t.complete flash effects).transfer.image fw
        (t.complete flash effects).flash.calls := by
  have hlen : bytes.length = min t.image.len.toNat fw.length := by rw [hbytes, List.length_take]
  have hrec := holds.toNat_received_of_le (by omega)
  rw [Transfer.complete]
  split
  · rename_i done
    rw [Image.isComplete_iff] at done
    have enough : t.image.len.toNat ≤ fw.length := by
      rw [done] at hrec
      omega
    have hterms := t.image.terms_finish flash
    rcases Image.finish_cases pos holds flash with
      ⟨last, img', flash', hfin, hrec', hpages, hc⟩ | ⟨e, flash', hfin, hc⟩
    · rw [hfin] at hterms ⊢
      have hlen' : img'.len = t.image.len := congrArg Prod.fst hterms
      refine .inr ⟨Transfer.phase_arrive .., ?_, ?_⟩
      · rw [Transfer.image_arrive (by decide)]
        exact hlen'
      · rw [Transfer.image_arrive (by decide)]
        refine .whole (hrec'.trans (done.trans hlen'.symm)) (hlen' ▸ enough) ?_
        rw [Transfer.flash_arrive, hc, hcalls, ← Nat.zero_add pages.length, ← Flash.writes_append,
          hpages, hbytes, hlen']
    · rw [hfin]
      exact .inl (Transfer.phase_arrive ..)
  · rename_i more
    refine .inr ⟨Transfer.phase_arrive .., ?_, ?_⟩
    · rw [Transfer.image_arrive (by decide)]
    · rw [Transfer.image_arrive (by decide)]
      have short : fw.length < t.image.len.toNat := by
        refine Nat.lt_of_not_le fun enough ↦ more ?_
        refine Image.isComplete_iff.mpr (UInt32.toNat_inj.mp ?_)
        omega
      have hall : bytes = fw := by rw [hbytes, List.take_of_length_le (by omega)]
      exact .underway pages (hall ▸ holds) room short hcalls

/-- A packet of firmware is taken in, or the transfer fails. -/
theorem dataPacket (pos : 0 < page) (h : Receiving t.image fw flash.calls) (data : List UInt8) :
    (t.dataPacket flash data).transfer.phase = .failed ∨
      (t.dataPacket flash data).transfer.phase = .receivingData ∧
      (t.dataPacket flash data).transfer.image.len = t.image.len ∧
      Receiving (t.dataPacket flash data).transfer.image (fw ++ data)
        (t.dataPacket flash data).flash.calls := by
  rw [Transfer.dataPacket]
  split
  · exact .inl (Transfer.phase_arrive ..)
  · rename_i notDone
    have hiff := h.isComplete_iff
    cases h with
    | whole _ enough _ => exact absurd (hiff.mpr enough) notDone
    | underway pages holds room more hcalls =>
        have hrem := holds.toNat_remaining more
        -- the bytes that count are those up to the announced length
        have hcut : fw ++ data.take (min data.length t.image.remaining.toNat) =
            (fw ++ data).take t.image.len.toNat := by
          rw [List.take_append, List.take_of_length_le (by omega : fw.length ≤ _), hrem]
          congr 1
          rw [List.take_eq_take_iff]
          omega
        have hterms := t.image.terms_absorb
          (data.take (min data.length t.image.remaining.toNat)) flash
        dsimp only
        rcases Image.absorb_cases pos (data.take (min data.length t.image.remaining.toNat)) holds
          flash with ⟨new, img', flash', habs, _, hroom, adv⟩ | ⟨e, new, img', flash', _, habs, _⟩
        · rw [habs] at hterms ⊢
          have hlen' : img'.len = t.image.len := congrArg Prod.fst hterms
          have hcalls' : flash'.calls = writes page 0 (pages ++ new) := by
            rw [adv.calls, hcalls, Flash.writes_append, Nat.zero_add]
          have hlen'' : (img'.countPacket.2).len = t.image.len := hlen'
          rw [← hlen''] at hcut
          have hdone := complete (t := { t with image := img'.countPacket.2 }) pos
            adv.holds.countPacket (hroom (.inr room)) hcalls' hcut
          exact (hdone _).imp_right fun hdone ↦ ⟨hdone.1, hdone.2.1.trans hlen'', hdone.2.2⟩
        · rw [habs]
          exact .inl (Transfer.phase_arrive ..)

end Receiving

variable {F : Type} {flash : Flash.Traced F} {t : Transfer page}
variable {len? : Option UInt32} {fw : List UInt8}

namespace Faithful

/-! ### What it says in each phase -/

variable {calls : List Flash.Call}

theorem of_idle (h : Faithful len? fw t calls) (hp : t.phase = .idle) :
    len? = none ∧ fw = [] ∧ calls = [] := by
  cases h <;> simp_all [Phase.isTerminal]

theorem of_announced (h : Faithful len? fw t calls)
    (hp : t.phase = .ready ∨ t.phase = .receivingInit) :
    len? = some t.image.len ∧ fw = [] ∧ calls = [] ∧ t.image.Holds [] [] ∧ t.image.buffered = 0 ∧
      0 < t.image.len.toNat := by
  rcases hp with hp | hp <;> cases h <;> simp_all [Phase.isTerminal]

theorem of_receivingData (h : Faithful len? fw t calls) (hp : t.phase = .receivingData) :
    len? = some t.image.len ∧ Receiving t.image fw calls := by
  cases h <;> simp_all [Phase.isTerminal]

theorem of_valid (h : Faithful len? fw t calls) (hp : t.phase = .validated .valid) :
    ∃ len, len? = some len ∧ len.toNat ≤ fw.length ∧
      calls = writes page 0 (imagePages page (fw.take len.toNat)) ++ [.commit (.ok ())] := by
  cases h <;> simp_all [Phase.isTerminal]

/-! ### Steps -/

/-- Setting out to receive firmware, nothing has come and nothing is written. -/
theorem beginTransfer (h : Faithful len? fw t flash.calls) (pos : 0 < page)
    (hp : t.phase = .ready ∨ t.phase = .receivingInit) (es : List Effect) :
    Faithful len? fw (t.arrive .receivingData flash es).transfer
      (t.arrive .receivingData flash es).flash.calls := by
  obtain ⟨hlen, hfw, hcalls, holds, hbuf, more⟩ := h.of_announced hp
  have himg := Transfer.image_arrive (by decide : Phase.receivingData ≠ .idle) t flash es
  refine .receiving (Transfer.phase_arrive ..) (by rw [himg, hlen]) ?_
  rw [himg, hfw]
  exact .underway [] holds (hbuf ▸ pos) more hcalls

/-- Init packets are not part of the image. -/
theorem arriveInit (h : Faithful len? fw t flash.calls)
    (hp : t.phase = .ready ∨ t.phase = .receivingInit) (es : List Effect) :
    Faithful len? fw (t.arrive .receivingInit flash es).transfer
      (t.arrive .receivingInit flash es).flash.calls := by
  obtain ⟨hlen, hfw, hcalls, holds, hbuf, more⟩ := h.of_announced hp
  have himg := Transfer.image_arrive (by decide : Phase.receivingInit ≠ .idle) t flash es
  refine .announced (.inr (Transfer.phase_arrive ..)) ?_ hfw hcalls ?_ ?_ ?_ <;> rw [himg]
  · exact hlen
  · exact holds
  · exact hbuf
  · exact more

variable [Flash F]

/-- An image that is announced is new, and not empty. -/
theorem announceImage (h : Faithful len? fw t flash.calls) (hp : t.phase = .idle)
    (data : List UInt8) :
    Faithful
      (len?.or
        (Visit.mk .idle (some (.packet data))
          (t.announceImage flash data).transfer.phase).announced?)
      fw (t.announceImage flash data).transfer (t.announceImage flash data).flash.calls := by
  obtain ⟨hlen, hfw, hcalls⟩ := h.of_idle hp
  -- a length that is refused leaves everything as it was
  have hstay (es : List Effect) : Faithful
      (len?.or
        (Visit.mk .idle (some (.packet data)) (t.arrive .idle flash es).transfer.phase).announced?)
      fw (t.arrive .idle flash es).transfer (t.arrive .idle flash es).flash.calls := by
    rw [Transfer.phase_arrive, Visit.announced?_of_ne (.inr (by decide)), Option.or_none,
      Transfer.transfer_arrive_self hp]
    exact .idle hp hlen hfw hcalls
  unfold Transfer.announceImage
  split
  · rename_i a b c d rest
    dsimp only
    split
    · exact hstay _
    · rename_i fits
      have himg := Transfer.image_arrive (by decide : Phase.ready ≠ .idle)
        { t with image := t.image.start (Word.ofBytes32 a b c d) } flash
        [.openResponses, .log (Transfer.announced (Word.ofBytes32 a b c d)),
          Transfer.answer .start .success]
      rw [Transfer.phase_arrive]
      refine .announced (.inl (Transfer.phase_arrive ..)) ?_ hfw hcalls ?_ ?_ ?_ <;> rw [himg]
      · rw [hlen]
        rfl
      · exact .start _ _
      · rfl
      · have hne : Word.ofBytes32 a b c d ≠ 0 := fun h ↦ fits (.inl h)
        exact Nat.pos_of_ne_zero fun h ↦ hne (UInt32.toNat_inj.mp h)
  · exact hstay _

/-- A validation commits to an image that is whole, and to no other. -/
theorem validate (h : Faithful len? fw t flash.calls) (hp : t.phase = .receivingData) :
    Faithful len? fw (t.validate flash).transfer (t.validate flash).flash.calls := by
  obtain ⟨hlen, hrec⟩ := h.of_receivingData hp
  have hcalls := flash.calls_commit
  rw [Transfer.validate]
  split
  · rename_i done
    cases hx : Flash.commit flash with
    | mk answer flash' =>
        rw [hx] at hcalls
        cases answer with
        | error e => exact .ended (.inl (Transfer.phase_arrive ..))
        | ok _ =>
            have enough := hrec.isComplete_iff.mp done
            refine .valid t.image.len (Transfer.phase_arrive ..) hlen enough ?_
            cases hrec with
            | underway _ _ _ more _ => omega
            | whole _ _ hwritten => rw [Transfer.flash_arrive, hcalls, hwritten]
  · exact .ended (.inl (Transfer.phase_arrive ..))

/-- A step that stays keeps what the calls account for. -/
theorem stays (h : Faithful len? fw t flash.calls) {s : Step} (hs : s.stays = true)
    (data : List UInt8) :
    Faithful len? fw (t.step flash s data).transfer (t.step flash s data).flash.calls := by
  obtain ⟨hflash, ht | ⟨interval, ht⟩⟩ := t.step_of_stays flash hs data
  · rwa [hflash, ht]
  · rw [hflash, ht]
    cases h with
    | idle hp hlen hfw hcalls => exact .idle hp hlen hfw hcalls
    | announced hp hlen hfw hcalls hh hbuf more =>
        exact .announced hp hlen hfw hcalls (hh.setInterval interval) hbuf more
    | receiving hp hlen hrec =>
        refine .receiving hp hlen ?_
        cases hrec with
        | underway pages hh room more hcalls =>
            exact .underway pages (hh.setInterval interval) room more hcalls
        | whole done enough hcalls => exact .whole done enough hcalls
    | valid len hp hlen enough hcalls => exact .valid len hp hlen enough hcalls
    | ended hp => exact .ended hp

/-- Every step that fits keeps the invariant. -/
theorem step (h : Faithful len? fw t flash.calls) (pos : 0 < page) {r : Request} {s : Step}
    (fit : Fits t.phase r s) :
    Faithful
      (len?.or (Visit.mk t.phase (some r) (t.step flash s r.data).transfer.phase).announced?)
      (fw ++ (Visit.mk t.phase (some r) (t.step flash s r.data).transfer.phase).firmware)
      (t.step flash s r.data).transfer (t.step flash s r.data).flash.calls := by
  generalize hp : t.phase = p at fit ⊢
  cases fit with
  | announceImage data =>
      rw [Visit.firmware_of_ne (by decide), List.append_nil]
      exact h.announceImage hp data
  | beginInit opcode payload =>
      rw [Visit.announced?_of_ne (.inl (by decide)), Option.or_none,
        Visit.firmware_of_ne (by decide), List.append_nil]
      exact h.arriveInit (.inl hp) []
  | initPacket data =>
      rw [Visit.announced?_of_ne (.inl (by decide)), Option.or_none,
        Visit.firmware_of_ne (by decide), List.append_nil]
      exact h.arriveInit (.inr hp) _
  | beginTransfer opcode payload hp' =>
      rw [Visit.announced?_of_ne (.inl (by rcases hp' with h | h <;> rw [h] <;> decide)),
        Option.or_none, Visit.firmware_control, List.append_nil]
      exact h.beginTransfer pos (hp ▸ hp') _
  | dataPacket data =>
      obtain ⟨hlen, hrec⟩ := h.of_receivingData hp
      rw [Visit.announced?_of_ne (.inl (by decide)), Option.or_none]
      rcases hrec.dataPacket pos data with hfail | ⟨hphase, hlen', hrec'⟩
      · exact .ended (.inr (.inl hfail))
      · exact .receiving hphase (hlen.trans (congrArg some hlen'.symm)) hrec'
  | validate opcode payload _ =>
      rw [Visit.announced?_of_ne (.inl (by decide)), Option.or_none, Visit.firmware_control,
        List.append_nil]
      exact h.validate hp
  | lateData data hs =>
      rw [Visit.announced?_of_ne (.inl (by decide)), Option.or_none,
        Visit.firmware_of_ne (by decide), List.append_nil]
      exact h.stays hs data
  | inPlace opcode payload live hs =>
      rw [Visit.announced?_of_control, Option.or_none, Visit.firmware_control, List.append_nil]
      exact h.stays hs payload

end Faithful

/-! ## Whole runs -/

section

variable {P F R : Type} [Port P] [Flash F] [Restart R]
variable {pipes : UpdatePipes} {interval : UInt16} {session : Session} {link : Link P} {flash : F}
variable {restart : R} {visits : List Visit} {u : Updater page P (Flash.Traced F) R}

/-- The calls on the flash are accounted for throughout a run. -/
theorem faithful_of_run (pos : 0 < page)
    (h : Updater.Run (.fresh pipes interval session link (.fresh flash) restart) visits u) :
    Faithful (announced? visits) (firmware visits) u.transfer u.flash.calls := by
  induction h with
  | start => exact .idle rfl rfl rfl rfl
  | meanwhile _ same ih => rwa [same.transfer, same.flash]
  | @write visits v turns pipe data _ ih =>
      rw [firmware_append, announced?_append]
      rcases Updater.write_cases (rfl : (v.write turns pipe data).state = _) with
        ⟨hw, hr⟩ | ⟨r, s, hr, hroute, ht, hf⟩ | ⟨_, hdown⟩
      · rw [hw, Visit.firmware_of_ignored hr, List.append_nil, Visit.announced?_self,
          Option.or_none]
        exact ih
      · have hphase : (v.write turns pipe data).state.phase =
            (v.transfer.step v.flash s r.data).transfer.phase := congrArg Transfer.phase ht
        rw [hr, ht, hf, hphase]
        exact ih.step pos (fits_of_route hroute)
      · exact .ended (.inr (.inr hdown))

/-- An image is declared valid only when the calls on the flash, over the whole run, are its pages,
in order and each once, and then one commit, and none of them has failed.  Conversely, while
firmware comes in no write has failed, and a request to validate finds the image valid as soon as
all of it has come and the commit succeeds. -/
theorem flash_calls_of_valid (pos : 0 < page)
    (h : Updater.Run (.fresh pipes interval session link (.fresh flash) restart) visits u) :
    (u.phase = .validated .valid → ∃ len, announced? visits = some len ∧
      len.toNat ≤ (firmware visits).length ∧
      u.flash.calls =
        writes page 0 (imagePages page ((firmware visits).take len.toNat)) ++ [.commit (.ok ())] ∧
      ∀ k < (imagePages page ((firmware visits).take len.toNat)).length,
        (UInt32.ofNat (k * page)).toNat = k * page) ∧
    (u.phase = .receivingData → ∃ len, announced? visits = some len ∧
      (∃ pages, u.flash.calls = writes page 0 pages) ∧
      ∀ (turns : Nat) (pipe : UInt8) (data payload : List UInt8) (opcode : UInt8),
        u.pipes.classify pipe data = some (.control opcode payload) →
        ControlOp.ofByte? opcode = some .validate →
        ∃ v, u.write turns pipe data = .done v ∧
          (v.phase = .validated .valid ↔
            len.toNat ≤ (firmware visits).length ∧ (Flash.commit u.flash).1 = .ok ())) := by
  have hinv := faithful_of_run pos h
  constructor
  · intro hp
    obtain ⟨len, hlen, enough, hcalls⟩ := hinv.of_valid hp
    refine ⟨len, hlen, enough, hcalls, fun k hk ↦ page_address_lt pos ?_ hk⟩
    rw [List.length_take]
    exact Nat.lt_of_le_of_lt (Nat.min_le_left _ _) len.toNat_lt
  · intro hp
    obtain ⟨hlen, hrec⟩ := hinv.of_receivingData hp
    refine ⟨u.transfer.image.len, hlen, ?_, ?_⟩
    · cases hrec with
      | underway pages _ _ _ hcalls => exact ⟨pages, hcalls⟩
      | whole _ _ hcalls => exact ⟨_, hcalls⟩
    · intro turns pipe data payload opcode hr hop
      have hlead : u.pipes.lead u.phase pipe data =
          some (.control opcode payload, .step .validate) := by
        refine UpdatePipes.lead_eq_some.mpr ⟨hr, ?_⟩
        rw [hp]
        exact route_receivingData_validate hop payload
      have hsame := (Updater.step_sameUpdate u .validate
        (Request.control opcode payload).data).trans (.flushResponses _)
      refine ⟨_, by rw [u.write_eq, hlead], ?_⟩
      rw [Updater.phase, hsame.transfer, ← hrec.isComplete_iff]
      exact u.transfer.validate_valid_iff u.flash

/-- Three bytes over pages of two: a fourth byte is not written, the last page is filled up, and the
request to validate finds the image valid. -/
theorem flash_calls_three_bytes :
    ∃ (visits : List Visit) (u : Updater 2 Sim.Radio (Flash.Traced Sim.Flash) Watchdog),
      Updater.Run (.fresh ⟨8, 9, 10⟩ 0 (.fresh 2) (.fresh {}) (.fresh { capacity := 16 }) {})
        visits u ∧
      announced? visits = some 3 ∧ firmware visits = [1, 2, 3, 9] ∧ u.phase = .receivingData ∧
      ∃ v, u.write 0 10 [4] = .done v ∧ v.phase = .validated .valid ∧
        v.flash.calls = writes 2 0 [[1, 2], [3, erased]] ++ [.commit (.ok ())] := by
  have run := (((Updater.Run.start (u := (.fresh ⟨8, 9, 10⟩ 0 (.fresh 2) (.fresh {})
    (.fresh { capacity := 16 }) {} : Updater 2 Sim.Radio (Flash.Traced Sim.Flash) Watchdog))).write
      0 8 [3, 0, 0, 0]).write 0 10 [3]).write 0 8 [1, 2] |>.write 0 8 [3, 9]
  obtain ⟨len, hlen, _, hvalid⟩ := (flash_calls_of_valid (by decide) run).2 rfl
  obtain rfl : len = 3 := (Option.some.inj hlen).symm
  obtain ⟨v, hv, hphase⟩ := hvalid 0 10 [4] [4] 4 rfl rfl
  have valid := hphase.mpr ⟨by decide, rfl⟩
  refine ⟨_, _, run, rfl, rfl, rfl, v, hv, valid, ?_⟩
  have whole := run.write 0 10 [4]
  rw [hv] at whole
  obtain ⟨len, hlen, _, hcalls, _⟩ := (flash_calls_of_valid (by decide) whole).1 valid
  obtain rfl : len = 3 := (Option.some.inj hlen).symm
  exact hcalls.trans (congrArg (fun bytes ↦ writes 2 0 (imagePages 2 bytes) ++ _)
    (show _ = [1, 2, 3] from rfl))

end

end RadioBoot
