import RadioBoot.Update.Transfer

/-!
# The steps of an update

Which step a write can lead to is decided by the phase, and `Fits` says it once, case by case: a
packet means something different in each phase, and what a request of the control point means
depends on the phase only while an image is on its way.  Proofs about steps go by the cases of
`Fits` (`fits_of_route`) and by the phase that a step leaves (`phase_arrive`).
-/

namespace RadioBoot

/-! ## Steps that a phase allows -/

/-- The steps that answer or take note and change neither the phase nor the bytes of the image. -/
def Step.stays : Step → Bool
  | .setReceiptInterval | .reportImageSize | .refuse .. => true
  | _ => false

/-- In this phase this write leads to this step. -/
inductive Fits : Phase → Request → Step → Prop
  | /-- The first packet announces the image. -/
    announceImage (data : List UInt8) : Fits .idle (.packet data) .announceImage
  | beginInit (opcode : UInt8) (payload : List UInt8) :
      Fits .ready (.control opcode payload) .beginInit
  | initPacket (data : List UInt8) : Fits .receivingInit (.packet data) .initPacket
  | /-- The init packet may be left out. -/
    beginTransfer {phase : Phase} (opcode : UInt8) (payload : List UInt8) :
      phase = .ready ∨ phase = .receivingInit →
        Fits phase (.control opcode payload) .beginTransfer
  | dataPacket (data : List UInt8) : Fits .receivingData (.packet data) .dataPacket
  | validate (opcode : UInt8) (payload : List UInt8) :
      ControlOp.ofByte? opcode = some .validate →
        Fits .receivingData (.control opcode payload) .validate
  | /-- A packet after a failure is refused. -/
    lateData (data : List UInt8) {s : Step} : s.stays = true → Fits .failed (.packet data) s
  | /-- All other requests are answered in place. -/
    inPlace {phase : Phase} (opcode : UInt8) (payload : List UInt8) {s : Step} :
      phase.isTerminal = false → s.stays = true → Fits phase (.control opcode payload) s

/-- Routing leads to steps that fit. -/
theorem fits_of_route {phase : Phase} {r : Request} {s : Step}
    (h : route phase r = some (.step s)) : Fits phase r s := by
  unfold route at h
  split at h
  · exact absurd h (by simp)
  · rename_i live
    have live : phase.isTerminal = false := by simpa using live
    cases r with
    | packet data =>
        cases phase <;> simp only [Route.ofPacket, Option.some.injEq, Route.step.injEq,
          reduceCtorEq] at h <;> subst h
        · exact .announceImage data
        · exact .initPacket data
        · exact .dataPacket data
        · exact .lateData data rfl
    | control opcode payload =>
        cases hop : ControlOp.ofByte? opcode with
        | none =>
            simp only [hop, Option.some.injEq, Route.step.injEq] at h
            exact .inPlace opcode payload live (h ▸ rfl)
        | some op =>
            simp only [hop] at h
            unfold Route.ofControl at h
            split at h <;>
              simp only [Option.some.injEq, Route.step.injEq, reduceCtorEq] at h <;> subst h
            · exact .beginInit opcode payload
            · exact .beginTransfer opcode payload (.inl rfl)
            · exact .beginTransfer opcode payload (.inr rfl)
            · exact .validate opcode payload hop
            all_goals exact .inPlace opcode payload live rfl

/-- Nothing leads anywhere from a terminal phase. -/
theorem live_of_route {phase : Phase} {r : Request} {way : Route}
    (h : route phase r = some way) : phase.isTerminal = false := by
  unfold route at h
  split at h
  · exact absurd h (by simp)
  · rename_i live
    exact Bool.eq_false_iff.mpr live

/-- Only a request can lead to a reset. -/
theorem control_of_route_reset {phase : Phase} {r : Request} (h : route phase r = some .reset) :
    ∃ opcode payload, r = .control opcode payload := by
  cases r with
  | control opcode payload => exact ⟨opcode, payload, rfl⟩
  | packet data =>
      cases phase <;> simp [route, Phase.isTerminal, Route.ofPacket] at h

/-- While firmware comes in, no packet is ignored. -/
theorem route_receivingData_packet (data : List UInt8) :
    route .receivingData (.packet data) = some (.step .dataPacket) := rfl

/-- While firmware comes in, a request to validate is taken up. -/
theorem route_receivingData_validate {opcode : UInt8}
    (h : ControlOp.ofByte? opcode = some .validate) (payload : List UInt8) :
    route .receivingData (.control opcode payload) = some (.step .validate) := by
  simp only [route, Phase.isTerminal, Bool.false_eq_true, if_false, h, Route.ofControl]

/-! ## The phase that a step leaves -/

namespace Transfer

variable {page : Nat} {F : Type}

@[simp] theorem phase_moveTo (t : Transfer page) (next : Phase) :
    (t.moveTo next).1.phase = next := by
  rw [moveTo]
  split
  · rename_i h
    exact h.symm
  · rfl

/-- Only on the way back to `idle` the image is forgotten. -/
theorem image_moveTo {next : Phase} (h : next ≠ .idle) (t : Transfer page) :
    (t.moveTo next).1.image = t.image := by
  rw [moveTo]
  split <;> rfl

@[simp] theorem phase_arrive (t : Transfer page) (next : Phase) (flash : F) (es : List Effect) :
    (t.arrive next flash es).transfer.phase = next := t.phase_moveTo next

theorem live_arrive {next : Phase} (h : next.isTerminal = false) (t : Transfer page) (flash : F)
    (es : List Effect) : (t.arrive next flash es).transfer.phase.isTerminal = false := by
  rw [phase_arrive]
  exact h

@[simp] theorem flash_arrive (t : Transfer page) (next : Phase) (flash : F) (es : List Effect) :
    (t.arrive next flash es).flash = flash := rfl

theorem image_arrive {next : Phase} (h : next ≠ .idle) (t : Transfer page) (flash : F)
    (es : List Effect) : (t.arrive next flash es).transfer.image = t.image := image_moveTo h t

/-- Arriving where one is changes nothing. -/
theorem transfer_arrive_self {t : Transfer page} {next : Phase} (h : t.phase = next) (flash : F)
    (es : List Effect) : (t.arrive next flash es).transfer = t := by
  simp only [arrive, moveTo, h, if_true]

variable [Flash F]

/-- A step that stays leaves the phase, the flash and the bytes of the image alone; at most the
receipts are counted anew. -/
theorem step_of_stays (t : Transfer page) (flash : F) {s : Step} (h : s.stays = true)
    (data : List UInt8) :
    (t.step flash s data).flash = flash ∧
      ((t.step flash s data).transfer = t ∨
        ∃ interval, (t.step flash s data).transfer =
          { t with image := t.image.setInterval interval }) := by
  cases s with
  | setReceiptInterval =>
      rw [step]
      unfold setReceiptInterval
      split
      · exact ⟨rfl, .inr ⟨_, rfl⟩⟩
      · exact ⟨rfl, .inl rfl⟩
  | reportImageSize => exact ⟨rfl, .inl rfl⟩
  | refuse => exact ⟨rfl, .inl rfl⟩
  | _ => exact absurd h (by simp [Step.stays])

/-! ## No step ends an update -/

theorem live_complete (t : Transfer page) (flash : F) (es : List Effect) :
    (t.complete flash es).transfer.phase.isTerminal = false := by
  rw [complete]
  split
  · split <;> exact live_arrive rfl _ _ _
  · exact live_arrive rfl _ _ _

theorem live_dataPacket (t : Transfer page) (flash : F) (data : List UInt8) :
    (t.dataPacket flash data).transfer.phase.isTerminal = false := by
  rw [dataPacket]
  split
  · exact live_arrive rfl _ _ _
  · dsimp only
    split
    · exact live_arrive rfl _ _ _
    · exact live_complete _ _ _

/-- Only a reset leads to a terminal phase. -/
theorem live_step {t : Transfer page} (h : t.phase.isTerminal = false) (flash : F) (s : Step)
    (data : List UInt8) : (t.step flash s data).transfer.phase.isTerminal = false := by
  cases hs : s.stays with
  | true =>
      obtain ⟨_, hsame | ⟨_, hsame⟩⟩ := t.step_of_stays flash hs data <;>
        · rw [hsame]
          exact h
  | false =>
      cases s with
      | announceImage =>
          rw [step]
          unfold announceImage
          split
          · dsimp only
            split <;> exact live_arrive rfl _ _ _
          · exact live_arrive rfl _ _ _
      | beginInit => exact live_arrive rfl _ _ _
      | initPacket => exact live_arrive rfl _ _ _
      | beginTransfer => exact live_arrive rfl _ _ _
      | dataPacket => exact t.live_dataPacket flash data
      | validate =>
          rw [step, validate]
          split
          · split <;> exact live_arrive rfl _ _ _
          · exact live_arrive rfl _ _ _
      | _ => exact absurd hs (by simp [Step.stays])

/-- A validation finds an image valid just when it is whole and the flash commits to it. -/
theorem validate_valid_iff (t : Transfer page) (flash : F) :
    (t.validate flash).transfer.phase = .validated .valid ↔
      t.image.isComplete = true ∧ (Flash.commit flash).1 = .ok () := by
  rw [validate]
  split
  · rename_i done
    rcases hx : Flash.commit flash with ⟨⟨e⟩ | ⟨⟨⟩⟩, flash'⟩
    · simp [done]
    · simp [done]
  · rename_i more
    simp [more]

end Transfer

end RadioBoot
