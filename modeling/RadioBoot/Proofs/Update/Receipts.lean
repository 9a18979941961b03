import RadioBoot.Proofs.Update.Delivery
import RadioBoot.Proofs.Update.Validity

/-!
# Receipts

While firmware comes in, a packet is answered with a receipt just when the packets counted so far
are a multiple of the receipt interval in force, and the receipt says how much of the image has come
(`receipts_eq`).  Packets are counted from the announcement of the image, or from the last request
that has set the interval if that came later, but the count has sixteen bits only.  So receipts keep
their cadence for 65535 packets, and after that with intervals that divide 65536; with any other
interval the packet that takes the count back to zero is answered out of turn
(`receipts_off_cadence`).

What a run makes of the count is `Counts`, and there is one step lemma for it (`Counts.step`).
-/

namespace RadioBoot

/-! ## What a run has been sent -/

namespace Visit

/-- The receipt interval that a write sets, in the two bytes behind its opcode. -/
def interval? (v : Visit) : Option UInt16 :=
  match v.request with
  | some (.control opcode (_ :: low :: high :: _)) =>
    if ControlOp.ofByte? opcode = some .packetReceiptRequest ∧ v.before.isTerminal = false then
      some (Word.ofBytes low high)
    else
      none
  | _ => none

/-- Whether a write is a packet of firmware. -/
def isFirmware (v : Visit) : Bool :=
  match v.before, v.request with
  | .receivingData, some (.packet _) => true
  | _, _ => false

/-- Whether packets are counted anew from here. -/
def restarts (v : Visit) : Bool := v.announced?.isSome || v.interval?.isSome

end Visit

/-- The receipt interval in force: the one that has been set last, or else the one to begin with. -/
def intervalInForce (interval : UInt16) (visits : List Visit) : UInt16 :=
  (visits.filterMap Visit.interval?).getLast?.getD interval

/-- How many packets of firmware there have been since the image was announced, or since the
interval was set if that came later. -/
def packetCount (visits : List Visit) : Nat :=
  (visits.reverse.takeWhile fun v ↦ !v.restarts).countP Visit.isFirmware

theorem intervalInForce_append (interval : UInt16) (visits : List Visit) (v : Visit) :
    intervalInForce interval (visits ++ [v]) =
      v.interval?.getD (intervalInForce interval visits) := by
  rw [intervalInForce, List.filterMap_append, List.getLast?_append, intervalInForce]
  cases hv : v.interval? <;> simp [hv]

theorem packetCount_append (visits : List Visit) (v : Visit) :
    packetCount (visits ++ [v]) =
      if v.restarts then 0 else packetCount visits + if v.isFirmware then 1 else 0 := by
  rw [packetCount, List.reverse_append, List.reverse_singleton, List.singleton_append,
    List.takeWhile_cons]
  cases hv : v.restarts with
  | true => rfl
  | false => exact List.countP_cons

namespace Visit

theorem isFirmware_control (before after : Phase) (opcode : UInt8) (payload : List UInt8) :
    (Visit.mk before (some (.control opcode payload)) after).isFirmware = false := by
  cases before <;> rfl

theorem isFirmware_of_ne {before : Phase} (h : before ≠ .receivingData) (r : Option Request)
    (after : Phase) : (Visit.mk before r after).isFirmware = false := by
  cases before with
  | receivingData => exact absurd rfl h
  | _ => rfl

end Visit

/-- A request for receipts is taken up in every phase but the terminal ones. -/
theorem route_packetReceiptRequest {phase : Phase} {opcode : UInt8}
    (live : phase.isTerminal = false) (h : ControlOp.ofByte? opcode = some .packetReceiptRequest)
    (payload : List UInt8) :
    route phase (.control opcode payload) = some (.step .setReceiptInterval) := by
  rw [route, live, if_neg (by simp), h]
  cases phase with
  | validated verdict => cases verdict <;> rfl
  | _ => rfl

/-- No other request sets the interval. -/
theorem ofByte?_of_route {phase : Phase} {opcode : UInt8} {payload : List UInt8}
    (h : route phase (.control opcode payload) = some (.step .setReceiptInterval)) :
    ControlOp.ofByte? opcode = some .packetReceiptRequest := by
  unfold route at h
  split at h
  · exact absurd h (by simp)
  · cases hop : ControlOp.ofByte? opcode with
    | none => simp [hop] at h
    | some op =>
        simp only [hop] at h
        unfold Route.ofControl at h
        split at h <;> simp_all

/-- Firmware comes in packets, and in one phase only. -/
theorem firmware_of_route {phase : Phase} {r : Request}
    (h : route phase r = some (.step .dataPacket)) :
    phase = .receivingData ∧ r = .packet r.data := by
  cases fits_of_route h with
  | dataPacket data => exact ⟨rfl, rfl⟩
  | lateData _ hs => cases hs
  | inPlace _ _ _ hs => cases hs

/-- A packet brings the bytes that were written. -/
theorem UpdatePipes.classify_packet {p : UpdatePipes} {pipe : UInt8} {data data' : List UInt8}
    (h : p.classify pipe data = some (.packet data')) : data' = data := by
  unfold classify at h
  split at h
  · cases h
    rfl
  · split at h
    · split at h <;> cases h
    · cases h

namespace Visit

/-- Where a write does not lead to the step for it, the interval stays. -/
theorem interval?_of_route {before : Phase} {r : Request} {way : Option Route}
    (h : route before r = way) (hway : way ≠ some (.step .setReceiptInterval)) (after : Phase) :
    (Visit.mk before (some r) after).interval? = none := by
  rw [interval?]
  split
  · rename_i opcode _ low high rest hr
    refine if_neg fun ⟨hop, live⟩ ↦ hway ?_
    rw [← h, Option.some.inj hr, route_packetReceiptRequest live hop]
  · rfl

/-- A write that is ignored sets no interval, and is no packet of firmware. -/
theorem interval?_of_ignored {p : Phase} {request : Option Request}
    (h : ∀ r, request = some r → route p r = none) (after : Phase) :
    (Visit.mk p request after).interval? = none := by
  cases request with
  | none => rfl
  | some r => exact interval?_of_route (h r rfl) (by simp) after

theorem isFirmware_of_ignored {p : Phase} {request : Option Request}
    (h : ∀ r, request = some r → route p r = none) (after : Phase) :
    (Visit.mk p request after).isFirmware = false := by
  simp only [isFirmware]
  split
  · exact absurd rfl (ne_packet_of_ignored h _)
  · rfl

theorem restarts_eq_false {v : Visit} (hannounced : v.announced? = none)
    (hinterval : v.interval? = none) : v.restarts = false := by
  rw [restarts, hannounced, hinterval]
  rfl

end Visit

/-! ## Receipts that a step asks for -/

/-- The count in a receipt. -/
def Message.receipt? : Message → Option UInt32
  | .receipt received => some received
  | _ => none

/-- The receipt that an effect asks for. -/
def Effect.receipt? : Effect → Option UInt32
  | .respond m => m.receipt?
  | _ => none

/-- The receipts among the responses that have been asked for. -/
def receipts (asked : List Asked) : List UInt32 := asked.filterMap fun a ↦ a.message.receipt?

/-- Performing effects asks for the receipts among them. -/
theorem Updater.receipts_asks {page : Nat} {P F R : Type} (es : List Effect) :
    ∀ u : Updater page P F R, receipts (u.asks es) = es.filterMap Effect.receipt? := by
  induction es with
  | nil => intro _; rfl
  | cons e es ih =>
      intro u
      cases e with
      | respond m =>
          rw [asks, receipts, List.filterMap_cons, List.filterMap_cons, ← receipts, ih]
          rfl
      | log line => exact ih _
      | openResponses => exact ih _

variable {page : Nat} {F : Type}

namespace Transfer

variable (t : Transfer page)

/-- Going on to a phase asks for no receipt. -/
@[simp] theorem receipts_arrive (next : Phase) (flash : F) (es : List Effect) :
    (t.arrive next flash es).effects.filterMap Effect.receipt? =
      es.filterMap Effect.receipt? := by
  have hlog : ∀ lines : List Line, (lines.map Effect.log).filterMap Effect.receipt? = [] := by
    simp [Effect.receipt?]
  rw [arrive, List.filterMap_append, hlog, List.append_nil]

variable [Flash F] (flash : F)

/-- Only a packet of firmware asks for receipts. -/
theorem receipts_step {s : Step} (h : s ≠ .dataPacket) (data : List UInt8) :
    (t.step flash s data).effects.filterMap Effect.receipt? = [] := by
  cases s with
  | dataPacket => exact absurd rfl h
  | announceImage =>
      rw [step]
      unfold announceImage
      split
      · dsimp only
        split <;> rw [receipts_arrive] <;> rfl
      · rw [receipts_arrive]
        rfl
  | beginInit => rw [step, receipts_arrive]; rfl
  | initPacket => rw [step, receipts_arrive]; rfl
  | beginTransfer => rw [step, receipts_arrive]; rfl
  | validate =>
      rw [step, validate]
      split
      · split <;> rw [receipts_arrive] <;> rfl
      · rw [receipts_arrive]
        rfl
  | setReceiptInterval =>
      rw [step]
      unfold setReceiptInterval
      split <;> rfl
  | reportImageSize => rfl
  | refuse => rfl

omit [Flash F] in
/-- After a packet a receipt is due when the interval divides the count, as it stands in sixteen
bits. -/
theorem countPacket_fst {img : Image page} {k : Nat} (h : img.packets = .ofNat k) :
    img.countPacket.1 = true ↔
      img.interval.toNat ≠ 0 ∧ img.interval.toNat ∣ (k + 1) % 65536 := by
  have hcount : (img.packets + 1).toNat = (k + 1) % 65536 := by
    rw [h, UInt16.toNat_add, UInt16.toNat_ofNat', Nat.mod_add_mod]
    rfl
  rw [Image.countPacket, Bool.and_eq_true, bne_iff_ne, beq_iff_eq, Nat.dvd_iff_mod_eq_zero,
    ← hcount, ← UInt16.toNat_mod, ← UInt16.toNat_zero, UInt16.toNat_inj, Ne, Ne, UInt16.toNat_inj]

/-- Finishing an image asks for no receipt, and it leaves the count alone or fails. -/
theorem complete_spec (es : List Effect) :
    (t.complete flash es).effects.filterMap Effect.receipt? = es.filterMap Effect.receipt? ∧
      ((t.complete flash es).transfer.phase = .failed ∨
        (t.complete flash es).transfer.image.terms = t.image.terms) := by
  have hterms := t.image.terms_finish flash
  rw [complete]
  split
  · split
    · rw [writeFails, receipts_arrive, List.filterMap_append]
      exact ⟨List.append_nil _, .inl (phase_arrive ..)⟩
    · rename_i hfin
      rw [hfin] at hterms
      rw [receipts_arrive, List.filterMap_append, image_arrive (by decide)]
      exact ⟨List.append_nil _, .inr hterms⟩
  · rw [receipts_arrive, image_arrive (by decide)]
    exact ⟨rfl, .inr rfl⟩

/-- The bytes of a packet that count: those up to the announced length. -/
def counted (data : List UInt8) : List UInt8 :=
  data.take (min data.length t.image.remaining.toNat)

variable {t flash} {data : List UInt8} {img : Image page} {flash' : F}

/-- A packet that cannot be taken in fails the transfer. -/
theorem dataPacket_of_error (more : t.image.isComplete = false) {e : FlashError}
    (habs : t.image.absorb flash (t.counted data) = (.error e, img, flash')) :
    (t.dataPacket flash data).transfer.phase = .failed ∧
      (t.dataPacket flash data).flash = flash' := by
  rw [counted] at habs
  rw [dataPacket, if_neg (Bool.eq_false_iff.mp more)]
  simp only [habs]
  exact ⟨phase_arrive .., rfl⟩

/-- Any other is counted, and it asks for a receipt if that makes one due. -/
theorem dataPacket_of_ok (more : t.image.isComplete = false)
    (habs : t.image.absorb flash (t.counted data) = (.ok (), img, flash')) :
    (t.dataPacket flash data).effects.filterMap Effect.receipt? =
        (if img.countPacket.1 then [img.received] else []) ∧
      ((t.dataPacket flash data).transfer.phase = .failed ∨
        (t.dataPacket flash data).transfer.image.terms = img.countPacket.2.terms) := by
  rw [counted] at habs
  rw [dataPacket, if_neg (Bool.eq_false_iff.mp more)]
  simp only [habs]
  obtain ⟨heffects, hterms⟩ := complete_spec { t with image := img.countPacket.2 } flash'
    ((if min data.length t.image.remaining.toNat < data.length then
      [.log (pastEnd (data.length - min data.length t.image.remaining.toNat))] else []) ++
    (if img.countPacket.1 then [.respond (.receipt img.countPacket.2.received)] else []))
  refine ⟨heffects.trans ?_, hterms⟩
  rw [List.filterMap_append]
  split <;> split <;> rfl

end Transfer

/-! ## The count -/

/-- The image counts the packets of a run, as far as sixteen bits go, against the interval in
force. -/
structure Counts (interval : UInt16) (visits : List Visit) (img : Image page) : Prop where
  interval : img.interval = intervalInForce interval visits
  packets : img.packets = .ofNat (packetCount visits)

namespace Counts

variable {interval : UInt16} {visits : List Visit} {img img' : Image page} {v : Visit}
variable {t : Transfer page}

/-- Nothing is counted for a write that is neither a packet of firmware nor the start of a count. -/
theorem pass (h : Counts interval visits img) (hrestarts : v.restarts = false)
    (hfirmware : v.isFirmware = false) (hi : img'.interval = img.interval)
    (hp : img'.packets = img.packets) : Counts interval (visits ++ [v]) img' := by
  have hinterval : v.interval? = none := by
    rw [Visit.restarts, Bool.or_eq_false_iff] at hrestarts
    exact Option.not_isSome_iff_eq_none.mp (by simp [hrestarts.2])
  constructor
  · rw [hi, h.interval, intervalInForce_append, hinterval]
    rfl
  · rw [hp, h.packets, packetCount_append, hrestarts, hfirmware]
    rfl

variable [Flash F] {flash : F}

/-- A packet of firmware is counted, unless it makes the transfer fail. -/
theorem dataPacket (h : Counts interval visits t.image) (hp : t.phase = .receivingData)
    (data : List UInt8) (after : Phase) :
    (t.dataPacket flash data).transfer.phase = .failed ∨
      Counts interval (visits ++ [⟨t.phase, some (.packet data), after⟩])
        (t.dataPacket flash data).transfer.image := by
  cases more : t.image.isComplete with
  | true =>
      rw [Transfer.dataPacket, if_pos more]
      exact .inl (Transfer.phase_arrive ..)
  | false =>
      have habsorb := t.image.terms_absorb (t.counted data) flash
      rcases habs : t.image.absorb flash (t.counted data) with ⟨⟨e⟩ | ⟨⟨⟩⟩, img, flash'⟩
      · exact .inl (Transfer.dataPacket_of_error more habs).1
      rcases (Transfer.dataPacket_of_ok more habs).2 with hfail | hterms
      · exact .inl hfail
      · rw [habs] at habsorb
        obtain ⟨-, hpackets, hinterval⟩ := by
          simpa only [Image.terms, Image.countPacket, Prod.mk.injEq] using hterms
        obtain ⟨-, hpackets', hinterval'⟩ := by
          simpa only [Image.terms, Prod.mk.injEq] using habsorb
        have hcount : packetCount (visits ++ [⟨t.phase, some (.packet data), after⟩]) =
            packetCount visits + 1 := by
          rw [packetCount_append, hp]
          rfl
        refine .inr ⟨?_, ?_⟩
        · rw [hinterval, hinterval', h.interval, intervalInForce_append]
          rfl
        · rw [hpackets, hpackets', h.packets, hcount, UInt16.ofNat_add]
          rfl

/-- An image that is announced is counted anew, at the interval in force. -/
theorem announceImage (h : Counts interval visits t.image) (hp : t.phase = .idle)
    (data : List UInt8) :
    Counts interval
      (visits ++ [⟨.idle, some (.packet data), (t.announceImage flash data).transfer.phase⟩])
      (t.announceImage flash data).transfer.image := by
  -- a length that is refused leaves everything as it was
  have hstay (es : List Effect) : Counts interval
      (visits ++ [⟨.idle, some (.packet data), (t.arrive .idle flash es).transfer.phase⟩])
      (t.arrive .idle flash es).transfer.image := by
    rw [Transfer.phase_arrive, Transfer.transfer_arrive_self hp]
    exact h.pass (Visit.restarts_eq_false (Visit.announced?_of_ne (.inr (by decide)) _) rfl) rfl
      rfl rfl
  unfold Transfer.announceImage
  split
  · dsimp only
    split
    · exact hstay _
    · rw [Transfer.phase_arrive, Transfer.image_arrive (by decide)]
      refine ⟨?_, ?_⟩
      · rw [intervalInForce_append, ← h.interval]
        rfl
      · rw [packetCount_append]
        rfl
  · exact hstay _

omit [Flash F] in
/-- A request that brings an interval starts the count anew. -/
theorem setReceiptInterval (h : Counts interval visits t.image) {opcode : UInt8}
    {payload : List UInt8} (live : t.phase.isTerminal = false)
    (hop : ControlOp.ofByte? opcode = some .packetReceiptRequest) (after : Phase) :
    Counts interval (visits ++ [⟨t.phase, some (.control opcode payload), after⟩])
      (t.setReceiptInterval flash payload).transfer.image := by
  unfold Transfer.setReceiptInterval
  split
  · rename_i first low high rest
    have hset : (Visit.mk t.phase (some (.control opcode (first :: low :: high :: rest)))
        after).interval? = some (Word.ofBytes low high) := if_pos ⟨hop, live⟩
    refine ⟨?_, ?_⟩
    · rw [intervalInForce_append, hset]
      rfl
    · rw [packetCount_append, Visit.restarts, hset, Option.isSome_some, Bool.or_true, if_pos rfl]
      rfl
  · rename_i hshort
    have hnone : (Visit.mk t.phase (some (.control opcode payload)) after).interval? = none := by
      rw [Visit.interval?]
      split
      · rename_i hr
        cases hr
        exact absurd rfl (hshort _ _ _ _)
      · rfl
    exact h.pass (Visit.restarts_eq_false (Visit.announced?_of_control ..) hnone)
      (Visit.isFirmware_control ..) rfl rfl

/-- Every step but one that fails the transfer keeps count. -/
theorem step (h : Counts interval visits t.image) (hfail : t.phase ≠ .failed) {r : Request}
    {s : Step} (hroute : route t.phase r = some (.step s)) :
    (t.step flash s r.data).transfer.phase = .failed ∨
      Counts interval (visits ++ [⟨t.phase, some r, (t.step flash s r.data).transfer.phase⟩])
        (t.step flash s r.data).transfer.image := by
  have hpass {img' : Image page} {after : Phase} (hs : s ≠ .setReceiptInterval)
      (hannounced : (Visit.mk t.phase (some r) after).announced? = none)
      (hfirmware : (Visit.mk t.phase (some r) after).isFirmware = false)
      (himg : img' = t.image) : Counts interval (visits ++ [⟨t.phase, some r, after⟩]) img' := by
    have hway : some (Route.step s) ≠ some (Route.step .setReceiptInterval) := by
      rintro ⟨⟩
      exact hs rfl
    subst himg
    exact h.pass (Visit.restarts_eq_false hannounced (Visit.interval?_of_route hroute hway after))
      hfirmware rfl rfl
  have hfit := fits_of_route hroute
  generalize hp : t.phase = p at hfit hpass hroute hfail ⊢
  cases hfit with
  | announceImage data => exact .inr (h.announceImage hp data)
  | beginInit opcode payload =>
      exact .inr (hpass (by simp) (Visit.announced?_of_control ..) (Visit.isFirmware_control ..)
        (Transfer.image_arrive (by decide) ..))
  | initPacket data =>
      exact .inr (hpass (by simp) (Visit.announced?_of_ne (.inl (by decide)) _)
        (Visit.isFirmware_of_ne (by decide) ..) (Transfer.image_arrive (by decide) ..))
  | beginTransfer opcode payload _ =>
      exact .inr (hpass (by simp) (Visit.announced?_of_control ..) (Visit.isFirmware_control ..)
        (Transfer.image_arrive (by decide) ..))
  | dataPacket data => exact hp ▸ h.dataPacket hp data _
  | validate opcode payload _ =>
      refine .inr
        (hpass (by simp) (Visit.announced?_of_control ..) (Visit.isFirmware_control ..) ?_)
      rw [Transfer.step, Transfer.validate]
      split
      · split <;> exact Transfer.image_arrive (by decide) ..
      · exact Transfer.image_arrive (by decide) ..
  | lateData data _ => exact absurd rfl hfail
  | inPlace opcode payload live hs =>
      refine .inr ?_
      cases s with
      | setReceiptInterval =>
          exact hp ▸ h.setReceiptInterval (hp ▸ live) (ofByte?_of_route hroute) _
      | reportImageSize =>
          exact hpass (by simp) (Visit.announced?_of_control ..) (Visit.isFirmware_control ..) rfl
      | refuse procedure result =>
          exact hpass (by simp) (Visit.announced?_of_control ..) (Visit.isFirmware_control ..) rfl
      | _ => exact absurd hs (by simp [Step.stays])

end Counts

/-! ## Whole runs -/

/-- While firmware comes in, no write has failed. -/
theorem Receiving.sound {img : Image page} {fw : List UInt8} {calls : List Flash.Call}
    (h : Receiving img fw calls) : ∀ call ∈ calls, call.isFailedWrite = false := by
  have hwrites (pages : List (List UInt8)) :
      ∀ call ∈ Flash.writes page 0 pages, call.isFailedWrite = false := by
    intro call hcall
    obtain ⟨k, _, rfl⟩ := List.mem_mapIdx.mp hcall
    rfl
  cases h with
  | underway pages _ _ _ hcalls => exact hcalls ▸ hwrites pages
  | whole _ _ hcalls => exact hcalls ▸ hwrites _

namespace Updater

variable {P R : Type} [Port P] [Flash F] [Restart R] {pipes : UpdatePipes} {interval : UInt16}
variable {session : Session} {link : Link P} {restart : R} {visits : List Visit}

/-- A failed transfer stays failed until the link is taken down. -/
theorem failed_step {t : Transfer page} (h : t.phase = .failed) {r : Request} {s : Step}
    (hroute : route t.phase r = some (.step s)) (flash : F) :
    (t.step flash s r.data).transfer.phase = .failed := by
  have stays (hs : s.stays = true) : (t.step flash s r.data).transfer.phase = .failed := by
    obtain ⟨_, ht | ⟨_, ht⟩⟩ := t.step_of_stays flash hs r.data <;> rw [ht] <;> exact h
  have hfit := fits_of_route hroute
  rw [h] at hfit
  cases hfit with
  | lateData _ hs => exact stays hs
  | inPlace _ _ _ hs => exact stays hs
  | beginTransfer _ _ hp => rcases hp with hp | hp <;> cases hp

/-- Until it has failed or is over, an update keeps count of the packets of its run. -/
theorem counts_of_run {flash : F} {u : Updater page P F R}
    (h : Run (.fresh pipes interval session link flash restart) visits u) :
    u.phase ≠ .failed → u.phase.isTerminal = false → Counts interval visits u.transfer.image := by
  induction h with
  | start => exact fun _ _ ↦ ⟨rfl, rfl⟩
  | meanwhile _ same ih =>
      rw [Updater.phase, same.transfer]
      exact ih
  | @write visits v turns pipe data _ ih =>
      intro hfail live
      rcases write_cases (rfl : (v.write turns pipe data).state = _) with
        ⟨hw, hignored⟩ | ⟨r, s, hr, hroute, ht, _⟩ | ⟨_, hdown⟩
      · rw [hw] at hfail live ⊢
        exact (ih hfail live).pass (Visit.restarts_eq_false (Visit.announced?_self ..)
          (Visit.interval?_of_ignored hignored _)) (Visit.isFirmware_of_ignored hignored _) rfl rfl
      · have hphase : (v.write turns pipe data).state.phase =
            (v.transfer.step v.flash s r.data).transfer.phase := congrArg Transfer.phase ht
        rw [hphase] at hfail ⊢
        have hv : v.phase ≠ .failed := fun hv ↦ hfail (failed_step hv hroute v.flash)
        rw [hr, ht]
        exact ((ih hv (live_of_route hroute)).step hv hroute).resolve_left hfail
      · rw [hdown] at live
        exact absurd live (by simp)

/-- While firmware comes in and no write fails, a packet is answered with a receipt when the
interval in force divides the count of packets, as it stands in sixteen bits. -/
theorem receipts_of_firmware (pos : 0 < page) {u : Updater page P (Flash.Traced F) R}
    (hcounts : Counts interval visits u.transfer.image)
    (hrec : Receiving u.transfer.image (firmware visits) u.flash.calls)
    (hp : u.phase = .receivingData) {pipe : UInt8} {data : List UInt8}
    (hr : u.pipes.classify pipe data = some (.packet data))
    (more : (firmware visits).length < u.transfer.image.len.toNat) (turns : Nat)
    (sound : ∀ call ∈ (u.write turns pipe data).state.flash.calls, call.isFailedWrite = false) :
    receipts (u.asked pipe data) =
      if (intervalInForce interval visits).toNat ≠ 0 ∧
          (intervalInForce interval visits).toNat ∣ (packetCount visits + 1) % 65536 then
        [.ofNat (min u.transfer.image.len.toNat ((firmware visits).length + data.length))]
      else
        [] := by
  have hlead : u.pipes.lead u.phase pipe data = some (.packet data, .step .dataPacket) :=
    UpdatePipes.lead_eq_some.mpr ⟨hr, hp ▸ route_receivingData_packet data⟩
  have hflash : (u.write turns pipe data).state.flash =
      (u.transfer.dataPacket u.flash data).flash := by
    rw [write_eq, hlead]
    exact ((step_sameUpdate u .dataPacket data).trans (.flushResponses _)).flash
  have hasked : receipts (u.asked pipe data) =
      (u.transfer.dataPacket u.flash data).effects.filterMap Effect.receipt? := by
    rw [asked, hlead]
    exact receipts_asks ..
  have notWhole : u.transfer.image.isComplete = false :=
    Bool.eq_false_iff.mpr fun done ↦ Nat.not_le.mpr more (hrec.isComplete_iff.mp done)
  cases hrec with
  | whole _ enough _ => omega
  | underway pages holds room _ hcalls =>
      have hrem := holds.toNat_remaining more
      have hterms := u.transfer.image.terms_absorb (u.transfer.counted data) u.flash
      have hlen : (firmware visits ++ u.transfer.counted data).length =
          min u.transfer.image.len.toNat ((firmware visits).length + data.length) := by
        rw [List.length_append, Transfer.counted, List.length_take, hrem]
        omega
      rcases Image.absorb_cases pos (u.transfer.counted data) holds u.flash with
        ⟨_, img, flash', habs, _, _, adv⟩ | ⟨e, _, img, _, flash', habs, _, _, _, hc⟩
      · obtain ⟨heffects, _⟩ := Transfer.dataPacket_of_ok notWhole habs
        rw [habs] at hterms
        obtain ⟨-, hpackets, hinterval⟩ := by simpa only [Image.terms, Prod.mk.injEq] using hterms
        have hdue := Transfer.countPacket_fst (hpackets.trans hcounts.packets)
        rw [hinterval, hcounts.interval] at hdue
        rw [hasked, heffects, ← hlen, ← adv.holds.received]
        simp only [hdue]
      · rw [hflash, (Transfer.dataPacket_of_error notWhole habs).2, hc] at sound
        have := sound (img.failedWrite e) (by simp)
        cases this

omit [Port P] [Restart R] in
/-- Nothing but a packet of firmware that comes before the image is whole is answered with a
receipt. -/
theorem receipts_of_other {u : Updater page P F R} {pipe : UInt8} {data : List UInt8}
    (h : ∀ bytes, u.pipes.classify pipe data = some (.packet bytes) → u.phase = .receivingData →
      u.transfer.image.isComplete = true) : receipts (u.asked pipe data) = [] := by
  rw [asked]
  split
  · rename_i r s hlead
    obtain ⟨hr, hroute⟩ := UpdatePipes.lead_eq_some.mp hlead
    dsimp only
    rw [receipts_asks]
    by_cases hs : s = .dataPacket
    · subst hs
      obtain ⟨hp, hdata⟩ := firmware_of_route hroute
      have done := h r.data (hr.trans (congrArg some hdata)) hp
      rw [Transfer.step, Transfer.dataPacket, if_pos done, Transfer.receipts_arrive]
      rfl
    · exact u.transfer.receipts_step u.flash hs r.data
  · rfl

/-- While firmware comes in and no write fails, a packet is answered with a receipt just when the
interval in force divides the number of packets so far, counted from the announcement of the image
or from the last request that has set the interval, and taken modulo 65536; for the interval zero
there are none.  The receipt gives the number of bytes that have come, up to the announced length.
Nothing else is answered with a receipt.  So for 65535 packets the receipts keep their cadence, and
for any number of packets if the interval divides 65536. -/
theorem receipts_eq (pos : 0 < page) {flash : F} {u : Updater page P (Flash.Traced F) R}
    (h : Run (.fresh pipes interval session link (.fresh flash) restart) visits u) (turns : Nat)
    (pipe : UInt8) (data : List UInt8) :
    let n := (intervalInForce interval visits).toNat
    let k := packetCount visits + 1
    (u.phase = .receivingData → u.pipes.classify pipe data = some (.packet data) →
      ∃ len, announced? visits = some len ∧
        ((firmware visits).length < len.toNat →
          (∀ call ∈ (u.write turns pipe data).state.flash.calls, call.isFailedWrite = false) →
          receipts (u.asked pipe data) =
            if n ≠ 0 ∧ n ∣ k % 65536 then
              [.ofNat (min len.toNat ((firmware visits).length + data.length))]
            else
              []) ∧
        (len.toNat ≤ (firmware visits).length → receipts (u.asked pipe data) = [])) ∧
    (u.phase ≠ .receivingData ∨ u.pipes.classify pipe data ≠ some (.packet data) →
      receipts (u.asked pipe data) = []) ∧
    (k < 65536 ∨ n ∣ 65536 → (n ∣ k % 65536 ↔ n ∣ k)) := by
  intro n k
  refine ⟨fun hp hr ↦ ?_, fun other ↦ ?_, fun hk ↦ ?_⟩
  · have hcounts := counts_of_run h (by simp [hp]) (by simp [hp, Phase.isTerminal])
    obtain ⟨hlen, hrec⟩ := (faithful_of_run pos h).of_receivingData hp
    refine ⟨u.transfer.image.len, hlen, fun more sound ↦ ?_, fun enough ↦ ?_⟩
    · exact receipts_of_firmware pos hcounts hrec hp hr more turns sound
    · exact receipts_of_other fun _ _ _ ↦ hrec.isComplete_iff.mpr enough
  · refine receipts_of_other fun bytes hr hp ↦ ?_
    rcases other with other | other
    · exact absurd hp other
    · exact absurd (UpdatePipes.classify_packet hr ▸ hr) other
  · rcases hk with hk | hk
    · rw [Nat.mod_eq_of_lt hk]
    · exact Nat.dvd_mod_iff hk

/-- A request for every second packet comes in after the first packet, so that the third one is
answered with a receipt, over all four bytes. -/
theorem receipts_every_second :
    ∃ (visits : List Visit) (u : Updater 2 Sim.Radio (Flash.Traced Sim.Flash) Watchdog),
      Run (.fresh ⟨8, 9, 10⟩ 5 (.fresh 2) (.fresh {}) (.fresh { capacity := 16 }) {}) visits u ∧
      intervalInForce 5 visits = 2 ∧ packetCount visits = 1 ∧
      receipts (u.asked 8 [3, 4]) = [4] := by
  have run := (((((Run.start (u := (.fresh ⟨8, 9, 10⟩ 5 (.fresh 2) (.fresh {})
    (.fresh { capacity := 16 }) {} : Updater 2 Sim.Radio (Flash.Traced Sim.Flash) Watchdog))).write
      0 8 [6, 0, 0, 0]).write 0 10 [3]).write 0 8 [1]).write 0 10 [8, 2, 0]).write 0 8 [2]
  obtain ⟨len, hlen, hdue, _⟩ := (receipts_eq (by decide) run 0 8 [3, 4]).1 rfl rfl
  obtain rfl : len = 6 := (Option.some.inj hlen).symm
  exact ⟨_, _, run, rfl, rfl, hdue (by decide) (by decide)⟩

/-! ## Beyond sixteen bits -/

/-- A packet of firmware without any bytes. -/
def emptyPacket : Visit := ⟨.receivingData, some (.packet []), .receivingData⟩

/-- Empty packets are counted, and nothing else. -/
theorem emptyPackets_spec (interval : UInt16) (visits : List Visit) (k : Nat) :
    announced? (visits ++ .replicate k emptyPacket) = announced? visits ∧
      firmware (visits ++ .replicate k emptyPacket) = firmware visits ∧
      intervalInForce interval (visits ++ .replicate k emptyPacket) =
        intervalInForce interval visits ∧
      packetCount (visits ++ .replicate k emptyPacket) = packetCount visits + k := by
  induction k with
  | zero => simp
  | succ k ih =>
      obtain ⟨hannounced, hfirmware, hinterval, hcount⟩ := ih
      rw [List.replicate_succ', ← List.append_assoc, announced?_append, firmware_append,
        intervalInForce_append, packetCount_append, hannounced, hfirmware, hinterval, hcount]
      exact ⟨Option.or_none, List.append_nil _, rfl, rfl⟩

/-- An empty packet leaves the transfer where it is. -/
theorem dataPacket_nil {t : Transfer page} (hp : t.phase = .receivingData)
    (more : t.image.isComplete = false) (flash : F) :
    (t.dataPacket flash []).transfer = { t with image := t.image.countPacket.2 } ∧
      (t.dataPacket flash []).flash = flash := by
  have more' : ¬t.image.countPacket.2.isComplete = true := Bool.eq_false_iff.mp more
  rw [Transfer.dataPacket, if_neg (Bool.eq_false_iff.mp more)]
  simp only [List.take_nil, Image.absorb, Transfer.complete, if_neg more']
  exact ⟨Transfer.transfer_arrive_self (t := { t with image := t.image.countPacket.2 }) hp _ _, rfl⟩

theorem write_emptyPacket {u : Updater page P F R} (hp : u.phase = .receivingData)
    (more : u.transfer.image.isComplete = false) (turns : Nat) :
    ∃ v, u.write turns u.pipes.packetRx [] = .done v ∧ v.phase = .receivingData ∧
      v.transfer.image.isComplete = false ∧ v.pipes = u.pipes ∧ v.flash = u.flash := by
  have hlead : u.pipes.lead u.phase u.pipes.packetRx [] = some (.packet [], .step .dataPacket) :=
    UpdatePipes.lead_eq_some.mpr ⟨if_pos rfl, hp ▸ route_receivingData_packet []⟩
  obtain ⟨htransfer, hflash⟩ := dataPacket_nil hp more u.flash
  have hstep := (u.step_sameUpdate .dataPacket []).trans (.flushResponses _)
  have ht := hstep.transfer.trans htransfer
  refine ⟨_, by rw [write_eq, hlead]; rfl, ?_, ?_, hstep.pipes, hstep.flash.trans hflash⟩
  · exact (congrArg Transfer.phase ht).trans hp
  · exact (congrArg (fun t : Transfer page ↦ t.image.isComplete) ht).trans more

/-- Any number of empty packets can be received. -/
theorem Run.emptyPackets {u₀ u : Updater page P F R} (h : Run u₀ visits u)
    (hp : u.phase = .receivingData) (more : u.transfer.image.isComplete = false) (k : Nat) :
    ∃ v, Run u₀ (visits ++ .replicate k emptyPacket) v ∧ v.phase = .receivingData ∧
      v.transfer.image.isComplete = false ∧ v.pipes = u.pipes ∧ v.flash = u.flash := by
  induction k with
  | zero => exact ⟨u, by rwa [List.replicate_zero, List.append_nil], hp, more, rfl, rfl⟩
  | succ k ih =>
      obtain ⟨v, hrun, hphase, hmore, hpipes, hflash⟩ := ih
      obtain ⟨w, hw, hphase', hmore', hpipes', hflash'⟩ := write_emptyPacket hphase hmore 0
      have hr : v.pipes.classify v.pipes.packetRx [] = some (.packet []) := if_pos rfl
      have hnext := hrun.write 0 v.pipes.packetRx []
      rw [hw, Progress.state_done, hr, hphase, hphase', List.append_assoc] at hnext
      exact ⟨w, List.replicate_succ' ▸ hnext, hphase', hmore', hpipes'.trans hpipes,
        hflash'.trans hflash⟩

/-- From anywhere in a transfer, empty packets lead to where the count goes back to zero, and there
is a receipt there at any interval. -/
theorem receipt_at_wrap (pos : 0 < page) {flash : F} {u : Updater page P (Flash.Traced F) R}
    (h : Run (.fresh pipes interval session link (.fresh flash) restart) visits u)
    (hp : u.phase = .receivingData) (more : u.transfer.image.isComplete = false)
    (on : (intervalInForce interval visits).toNat ≠ 0) (early : packetCount visits < 65536) :
    ∃ (visits' : List Visit) (v : Updater page P (Flash.Traced F) R),
      Run (.fresh pipes interval session link (.fresh flash) restart) visits' v ∧
      v.phase = .receivingData ∧ v.pipes = u.pipes ∧ announced? visits' = announced? visits ∧
      firmware visits' = firmware visits ∧
      intervalInForce interval visits' = intervalInForce interval visits ∧
      packetCount visits' + 1 = 65536 ∧
      (v.write 0 v.pipes.packetRx []).state.flash = u.flash ∧
      receipts (v.asked v.pipes.packetRx []) = [.ofNat (firmware visits).length] := by
  obtain ⟨v, run, hphase, hmore, hpipes, hflash⟩ :=
    h.emptyPackets hp more (65535 - packetCount visits)
  obtain ⟨hannounced, hfirmware, hinterval, hcount⟩ :=
    emptyPackets_spec interval visits (65535 - packetCount visits)
  generalize visits ++ .replicate (65535 - packetCount visits) emptyPacket = visits'
    at run hannounced hfirmware hinterval hcount
  obtain ⟨w, hw, _, _, _, hflash'⟩ := write_emptyPacket hphase hmore 0
  have hsame : (v.write 0 v.pipes.packetRx []).state.flash = u.flash := by
    rw [hw, Progress.state_done, hflash', hflash]
  have hcounts := counts_of_run run (by simp [hphase]) (by simp [hphase, Phase.isTerminal])
  obtain ⟨_, hrec⟩ := (faithful_of_run pos run).of_receivingData hphase
  have short : (firmware visits').length < v.transfer.image.len.toNat :=
    Nat.lt_of_not_le fun enough ↦ Bool.eq_false_iff.mp hmore (hrec.isComplete_iff.mpr enough)
  have hreceipts := receipts_of_firmware pos hcounts hrec hphase (if_pos rfl) short 0
    (by rw [hsame, ← hflash]; exact hrec.sound)
  have hdue : (intervalInForce interval visits).toNat ∣ (packetCount visits' + 1) % 65536 := by
    rw [hcount, show packetCount visits + (65535 - packetCount visits) + 1 = 65536 by omega]
    exact Nat.dvd_zero _
  rw [hinterval, if_pos ⟨on, hdue⟩, List.length_nil, Nat.add_zero,
    Nat.min_eq_right (Nat.le_of_lt short), hfirmware] at hreceipts
  exact ⟨visits', v, run, hphase, hpipes, hannounced, hfirmware, hinterval, by omega, hsame,
    hreceipts⟩

/-- An interval of 40000, and packets without any bytes: the one that takes the count back to zero
is answered with a receipt, though 40000 does not divide its number. -/
theorem receipts_off_cadence :
    ∃ (visits : List Visit) (u : Updater 8 Sim.Radio (Flash.Traced Sim.Flash) Watchdog),
      Run (.fresh ⟨8, 9, 10⟩ 40000 (.fresh 2) (.fresh {}) (.fresh { capacity := 16384 }) {})
        visits u ∧
      u.phase = .receivingData ∧ announced? visits = some 8 ∧ firmware visits = [] ∧
      intervalInForce 40000 visits = 40000 ∧ packetCount visits + 1 = 65536 ∧ ¬40000 ∣ 65536 ∧
      (u.write 0 8 []).state.flash.calls = [] ∧ receipts (u.asked 8 []) = [0] := by
  have begun := ((Run.start (u := (.fresh ⟨8, 9, 10⟩ 40000 (.fresh 2) (.fresh {})
    (.fresh { capacity := 16384 }) {} :
      Updater 8 Sim.Radio (Flash.Traced Sim.Flash) Watchdog))).write 0 8 [8, 0, 0, 0]).write
        0 10 [3]
  obtain ⟨visits, u, run, hphase, hpipes, hannounced, hfirmware, hinterval, hcount, hflash,
    hreceipts⟩ := receipt_at_wrap (by decide) begun rfl rfl (by decide) (by decide)
  have hpipe : u.pipes.packetRx = 8 := congrArg UpdatePipes.packetRx hpipes
  rw [hpipe] at hflash hreceipts
  exact ⟨visits, u, run, hphase, hannounced, hfirmware, hinterval, hcount, by decide,
    congrArg Flash.Traced.calls hflash, hreceipts⟩

end Updater

end RadioBoot
