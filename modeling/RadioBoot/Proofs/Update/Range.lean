import RadioBoot.Proofs.Flash.Alike
import RadioBoot.Proofs.Image.Range
import RadioBoot.Proofs.Update.Receipts

/-!
# Flash accesses in range

An update over a flash that is made up of whole pages writes whole pages only, each at its place and
within the capacity.  It writes while it takes in a packet of firmware and at no other time, and
once a write has failed it leaves the flash alone.  No counter wraps on the way, although a page may
end where the words of the machine do (`accesses_in_range`).

The invariant is `Ranged`.  While firmware comes in it ties the page buffer to the bytes that have
come (`Image.Filling`); in every phase it bounds these by the announced length, and that by the
capacity.
-/

namespace RadioBoot

variable {page : Nat} {F : Type}

/-! ## Flashes of a fixed size -/

namespace Flash

/-- Whether a call writes a page. -/
def Call.isWrite : Call → Bool
  | .program .. => true
  | .commit _ => false

variable [Flash F]

/-- The states that calls on a flash lead to. -/
inductive Reached (flash : F) : F → Prop
  | start : Reached flash flash
  | program {f : F} (address : UInt32) (bs : List UInt8) :
      Reached flash f → Reached flash (program f address bs).2
  | commit {f : F} : Reached flash f → Reached flash (commit f).2

/-- Whatever calls are made on the flash, it reports this capacity. -/
def HasCapacity (flash : F) (cap : UInt32) : Prop := ∀ f, Reached flash f → capacity f = cap

end Flash

/-- A simulated flash keeps its size. -/
theorem Sim.Flash.hasCapacity (f : Sim.Flash) : RadioBoot.Flash.HasCapacity f f.capacity := by
  intro f' h
  induction h with
  | start => rfl
  | program address bs _ ih =>
      refine Eq.trans ?_ ih
      simp only [RadioBoot.Flash.program, RadioBoot.Flash.capacity, Sim.Flash.program]
      split
      · rfl
      · split
        · rfl
        · split <;> rfl
  | commit _ ih =>
      refine Eq.trans ?_ ih
      simp only [RadioBoot.Flash.commit, RadioBoot.Flash.capacity, Sim.Flash.commit]
      split <;> rfl

namespace Transfer

section

variable [Flash F]

/-- What no call on a flash changes, no step changes. -/
theorem step_keeps (Inv : F → Prop)
    (program : ∀ f address bs, Inv f → Inv (Flash.program f address bs).2)
    (commit : ∀ f, Inv f → Inv (Flash.commit f).2) (t : Transfer page) {flash : F}
    (h : Inv flash) (s : Step) (data : List UInt8) : Inv (t.step flash s data).flash := by
  have b : Flash.Bisimulation fun f f' : F ↦ f = f' ∧ Inv f := by
    refine ⟨?_, ?_, ?_⟩
    · rintro f _ ⟨rfl, _⟩
      rfl
    · rintro f _ ⟨rfl, hf⟩ address bs
      exact ⟨rfl, rfl, program f address bs hf⟩
    · rintro f _ ⟨rfl, hf⟩
      exact ⟨rfl, rfl, commit f hf⟩
  exact (t.step_agree b ⟨rfl, h⟩ s data).flash.2

variable (t : Transfer page) (flash : Flash.Traced F)

/-- The calls of a step come behind those before. -/
theorem calls_step (s : Step) (data : List UInt8) :
    flash.calls <+: (t.step flash s data).flash.calls := by
  refine t.step_keeps (fun f : Flash.Traced F ↦ flash.calls <+: f.calls)
    (fun f address bs hf ↦ ?_) (fun f hf ↦ ?_) (List.prefix_refl _) s data
  · rw [Flash.Traced.calls_program]
    exact hf.trans (List.prefix_append _ _)
  · rw [Flash.Traced.calls_commit]
    exact hf.trans (List.prefix_append _ _)

/-- Only taking in a packet of firmware writes to the flash. -/
theorem calls_step_of_ne {s : Step} (h : s ≠ .dataPacket) (data : List UInt8) :
    (t.step flash s data).flash.calls = flash.calls ∨
      ∃ answer, (t.step flash s data).flash.calls = flash.calls ++ [.commit answer] := by
  have hcommit := flash.calls_commit
  cases s with
  | dataPacket => exact absurd rfl h
  | announceImage =>
      rw [step]
      unfold announceImage
      split
      · dsimp only
        split <;> exact .inl rfl
      · exact .inl rfl
  | beginInit | initPacket | beginTransfer | reportImageSize | refuse => exact .inl rfl
  | validate =>
      rw [step, validate]
      split
      · rcases hx : Flash.commit flash with ⟨_ | _, flash'⟩ <;>
          · rw [hx] at hcommit
            exact .inr ⟨_, hcommit⟩
      · exact .inl rfl
  | setReceiptInterval =>
      rw [step]
      unfold setReceiptInterval
      split <;> exact .inl rfl

end

/-- Short of `idle`, arriving changes nothing but the phase. -/
theorem transfer_arrive {next : Phase} (h : next ≠ .idle) (t : Transfer page) (flash : F)
    (es : List Effect) : (t.arrive next flash es).transfer = { t with phase := next } := by
  simp only [arrive, moveTo, if_neg h]
  split
  · rename_i same
    rw [same]
  · rfl

end Transfer

/-! ## The invariant -/

/-- While firmware comes in: more is to come, and there is room for it in the buffer; or the image
is whole, and nothing is left in the buffer. -/
inductive Image.Filling (img : Image page) : Prop
  | underway (pages : List (List UInt8)) (bytes : List UInt8) : img.Holds pages bytes →
      img.buffered < page → bytes.length < img.len.toNat → Image.Filling img
  | whole : img.received = img.len → img.buffered = 0 → Image.Filling img

/-- Until it is whole, more is to come. -/
theorem Image.Filling.more {img : Image page} (h : img.Filling) (more : img.isComplete = false) :
    ∃ pages bytes, img.Holds pages bytes ∧ img.buffered < page ∧ bytes.length < img.len.toNat := by
  cases h with
  | underway pages bytes holds room hlen => exact ⟨pages, bytes, holds, room, hlen⟩
  | whole done _ =>
      exact absurd (Image.isComplete_iff.mpr done) (Bool.eq_false_iff.mp more)

/-- What has come is bounded by what was announced and that by the capacity, and the calls on the
flash have stayed in range. -/
structure Ranged (cap : Nat) (t : Transfer page) (calls : List Flash.Call) : Prop where
  received_le : t.image.received.toNat ≤ t.image.len.toNat
  len_le : t.image.len.toNat ≤ cap
  orderly : Flash.Orderly page cap calls
  smooth : t.phase ≠ .failed → t.phase.isTerminal = false → Flash.Smooth page cap calls
  announced : t.phase = .ready ∨ t.phase = .receivingInit →
    t.image.Holds [] [] ∧ t.image.buffered = 0 ∧ 0 < t.image.len.toNat
  filling : t.phase = .receivingData → t.image.Filling

/-- No more of a packet counts than is still to come. -/
theorem Transfer.length_counted {t : Transfer page} {pages : List (List UInt8)}
    {bytes : List UInt8} (holds : t.image.Holds pages bytes)
    (more : bytes.length < t.image.len.toNat) (data : List UInt8) :
    bytes.length + (t.counted data).length ≤ t.image.len.toNat := by
  have hrem := holds.toNat_remaining more
  rw [Transfer.counted, List.length_take]
  omega

namespace Ranged

variable {cap : Nat} {t : Transfer page} {calls : List Flash.Call}

theorem fresh (page : Nat) (interval : UInt16) (cap : Nat) :
    Ranged cap (Transfer.fresh page interval) [] where
  received_le := Nat.le_refl 0
  len_le := Nat.zero_le cap
  orderly := Flash.Smooth.orderly (by simp [Flash.Smooth])
  smooth _ _ := by simp [Flash.Smooth]
  announced h := by rcases h with h | h <;> cases h
  filling h := by cases h

/-- A transfer that has ended asks for no more than that its image and its calls are bounded. -/
theorem ended {t' : Transfer page} (received_le : t'.image.received.toNat ≤ t'.image.len.toNat)
    (len_le : t'.image.len.toNat ≤ cap) (orderly : Flash.Orderly page cap calls)
    (h : t'.phase = .failed ∨ t'.phase.isTerminal = true) : Ranged cap t' calls where
  received_le := received_le
  len_le := len_le
  orderly := orderly
  smooth live hterminal := by rcases h with h | h <;> simp_all
  announced hp := by rcases h with h | h <;> rcases hp with hp | hp <;> simp_all [Phase.isTerminal]
  filling hp := by rcases h with h | h <;> simp_all [Phase.isTerminal]

variable {F : Type} {flash : Flash.Traced F}

/-- Going on to another phase, with the same image. -/
theorem arrive (t : Transfer page) (next : Phase) (begun : next ≠ .idle)
    (h : Ranged cap { t with phase := next } flash.calls) (es : List Effect) :
    Ranged cap (t.arrive next flash es).transfer (t.arrive next flash es).flash.calls := by
  rw [Transfer.transfer_arrive begun, Transfer.flash_arrive]
  exact h

/-- A transfer fails, with what has come still bounded. -/
theorem fail (t : Transfer page) (received_le : t.image.received.toNat ≤ t.image.len.toNat)
    (len_le : t.image.len.toNat ≤ cap) (orderly : Flash.Orderly page cap flash.calls)
    (es : List Effect) :
    Ranged cap (t.arrive .failed flash es).transfer (t.arrive .failed flash es).flash.calls :=
  arrive t .failed (by decide) (ended received_le len_le orderly (.inl rfl)) es

/-- A step that stays changes nothing that is bounded. -/
theorem stays [Flash F] (h : Ranged cap t flash.calls) {s : Step} (hs : s.stays = true)
    (data : List UInt8) :
    Ranged cap (t.step flash s data).transfer (t.step flash s data).flash.calls := by
  obtain ⟨hflash, ht | ⟨interval, ht⟩⟩ := t.step_of_stays flash hs data
  · rwa [hflash, ht]
  · rw [hflash, ht]
    refine ⟨h.received_le, h.len_le, h.orderly, h.smooth, fun hp ↦ ?_, fun hp ↦ ?_⟩
    · obtain ⟨hh, hrest⟩ := h.announced hp
      exact ⟨hh.setInterval interval, hrest⟩
    · cases h.filling hp with
      | underway pages bytes hh room more =>
          exact .underway pages bytes (hh.setInterval interval) room more
      | whole done none => exact .whole done none

/-- Setting out, with an image announced of which nothing has come. -/
theorem setOut (h : Ranged cap t flash.calls) (pos : 0 < page)
    (hp : t.phase = .ready ∨ t.phase = .receivingInit) {next : Phase}
    (hnext : next = .receivingInit ∨ next = .receivingData) (es : List Effect) :
    Ranged cap (t.arrive next flash es).transfer (t.arrive next flash es).flash.calls := by
  obtain ⟨holds, none, more⟩ := h.announced hp
  have smooth := h.smooth (by rcases hp with hp | hp <;> rw [hp] <;> decide)
    (by rcases hp with hp | hp <;> rw [hp] <;> rfl)
  refine arrive t next (by rcases hnext with rfl | rfl <;> decide)
    ⟨h.received_le, h.len_le, h.orderly, fun _ _ ↦ smooth, fun _ ↦ h.announced hp, fun _ ↦ ?_⟩ es
  exact .underway [] [] holds (none.symm ▸ pos) more

variable [Flash F]

/-- An image that is accepted fits. -/
theorem announceImage (h : Ranged cap t flash.calls) (hp : t.phase = .idle)
    (hcap : (Flash.capacity flash).toNat = cap) (data : List UInt8) :
    Ranged cap (t.announceImage flash data).transfer (t.announceImage flash data).flash.calls := by
  have hstay (es : List Effect) : Ranged cap (t.arrive .idle flash es).transfer
      (t.arrive .idle flash es).flash.calls := by
    rw [Transfer.transfer_arrive_self hp]
    exact h
  unfold Transfer.announceImage
  split
  · rename_i a b c d rest
    dsimp only
    split
    · exact hstay _
    · rename_i fits
      have hne : (Word.ofBytes32 a b c d).toNat ≠ 0 := fun h ↦ fits (.inl (UInt32.toNat_inj.mp h))
      have hle : (Word.ofBytes32 a b c d).toNat ≤ cap := by
        rw [← hcap]
        exact Nat.le_of_not_lt fun h ↦ fits (.inr (UInt32.lt_iff_toNat_lt.mpr h))
      refine arrive _ .ready (by decide)
        ⟨Nat.zero_le _, hle, h.orderly, fun _ _ ↦ ?_, fun _ ↦ ?_, ?_⟩ _
      · exact h.smooth (by rw [hp]; decide) (by rw [hp]; rfl)
      · exact ⟨.start _ _, rfl, Nat.pos_of_ne_zero hne⟩
      · intro hp
        cases hp
  · exact hstay _

/-- With the last byte in, the last page is written in range as well. -/
theorem complete (w : WholePages page cap) {pages : List (List UInt8)} {bytes : List UInt8}
    (holds : t.image.Holds pages bytes) (room : t.image.buffered < page)
    (le : bytes.length ≤ t.image.len.toNat) (len_le : t.image.len.toNat ≤ cap)
    (smooth : Flash.Smooth page cap flash.calls) (es : List Effect) :
    Ranged cap (t.complete flash es).transfer (t.complete flash es).flash.calls := by
  have hrec := holds.toNat_received_of_le le
  rw [Transfer.complete]
  split
  · rename_i done
    rw [Image.isComplete_iff] at done
    have hterms := t.image.terms_finish flash
    rcases Image.finish_orderly w holds (Nat.le_trans le len_le) smooth with
      ⟨img', flash', hfin, hrec', none, hs⟩ | ⟨e, flash', hfin, ho⟩
    · rw [hfin] at hterms ⊢
      have hlen : img'.len = t.image.len := congrArg Prod.fst hterms
      have whole : img'.received = img'.len := (hrec'.trans done).trans hlen.symm
      refine arrive { t with image := img' } .receivingData (by decide)
        ⟨?_, ?_, hs.orderly, fun _ _ ↦ hs, ?_, fun _ ↦ .whole whole none⟩ _
      · exact Nat.le_of_eq (congrArg UInt32.toNat whole)
      · exact hlen ▸ len_le
      · rintro (hp | hp) <;> cases hp
    · rw [hfin]
      exact fail { t with image := t.image.pad } (Nat.le_trans (Nat.le_of_eq hrec) le) len_le ho _
  · rename_i notDone
    refine arrive t .receivingData (by decide)
      ⟨Nat.le_trans (Nat.le_of_eq hrec) le, len_le, smooth.orderly, fun _ _ ↦ smooth, ?_,
        fun _ ↦ ?_⟩ _
    · rintro (hp | hp) <;> cases hp
    · refine .underway pages bytes holds room (Nat.lt_of_le_of_ne le fun heq ↦ notDone ?_)
      exact Image.isComplete_iff.mpr (UInt32.toNat_inj.mp (hrec.trans heq))

/-- A packet of firmware is taken in, or the transfer fails. -/
theorem dataPacket (h : Ranged cap t flash.calls) (w : WholePages page cap)
    (hp : t.phase = .receivingData) (data : List UInt8) :
    Ranged cap (t.dataPacket flash data).transfer (t.dataPacket flash data).flash.calls := by
  have smooth := h.smooth (by rw [hp]; decide) (by rw [hp]; rfl)
  rw [Transfer.dataPacket]
  split
  · exact fail t h.received_le h.len_le h.orderly _
  · rename_i notDone
    obtain ⟨pages, bytes, holds, room, more⟩ :=
      (h.filling hp).more (Bool.eq_false_iff.mpr notDone)
    have hcounted := Transfer.length_counted holds more data
    have hterms := t.image.terms_absorb (t.counted data) flash
    dsimp only
    rcases Image.absorb_orderly w holds (Nat.le_trans hcounted h.len_le) smooth with
      ⟨new, img', flash', habs, hh, hroom, hs⟩ | ⟨e, new, taken, img', flash', habs, htaken, hh, ho⟩
    · rw [habs] at hterms
      rw [Transfer.counted] at habs
      rw [habs]
      have hlen : img'.len = t.image.len := congrArg Prod.fst hterms
      refine complete (t := { t with image := img'.countPacket.2 }) w hh.countPacket (hroom room)
        ?_ (Nat.le_trans (Nat.le_of_eq (congrArg UInt32.toNat hlen)) h.len_le) hs _
      rw [List.length_append, show img'.countPacket.2.len = t.image.len from hlen]
      exact hcounted
    · rw [habs] at hterms
      rw [Transfer.counted] at habs
      rw [habs]
      have hlen : img'.len = t.image.len := congrArg Prod.fst hterms
      have hle : (bytes ++ taken).length ≤ img'.len.toNat := by
        have := htaken.length_le
        rw [List.length_append, hlen]
        omega
      have hrec := hh.toNat_received_of_le hle
      exact fail { t with image := img' } (Nat.le_trans (Nat.le_of_eq hrec) hle)
        (Nat.le_trans (Nat.le_of_eq (congrArg UInt32.toNat hlen)) h.len_le) ho _

/-- A validation commits at most. -/
theorem validate (h : Ranged cap t flash.calls) (hp : t.phase = .receivingData) :
    Ranged cap (t.validate flash).transfer (t.validate flash).flash.calls := by
  have smooth := h.smooth (by rw [hp]; decide) (by rw [hp]; rfl)
  have hcommit := flash.calls_commit
  have validated {flash' : Flash.Traced F} (hs : Flash.Smooth page cap flash'.calls)
      (verdict : Verdict) (es : List Effect) :
      Ranged cap (t.arrive (.validated verdict) flash' es).transfer
        (t.arrive (.validated verdict) flash' es).flash.calls := by
    refine arrive t (.validated verdict) (by simp)
      ⟨h.received_le, h.len_le, hs.orderly, fun _ _ ↦ hs, ?_, ?_⟩ es
    · rintro (hp | hp) <;> cases hp
    · intro hp
      cases hp
  have hmore : Flash.Smooth page cap (flash.calls ++ [.commit (Flash.commit flash).1]) := by
    refine smooth.append fun c hc ↦ ?_
    obtain rfl := List.mem_singleton.mp hc
    exact ⟨trivial, rfl⟩
  rw [← hcommit] at hmore
  rw [Transfer.validate]
  split
  · generalize Flash.commit flash = x at hmore
    rcases x with ⟨_ | _, flash'⟩
    · exact validated hmore _ _
    · exact validated hmore _ _
  · exact validated smooth _ _

/-- Every step that fits keeps the invariant. -/
theorem step (h : Ranged cap t flash.calls) (w : WholePages page cap)
    (hcap : (Flash.capacity flash).toNat = cap) {r : Request} {s : Step} (fit : Fits t.phase r s) :
    Ranged cap (t.step flash s r.data).transfer (t.step flash s r.data).flash.calls := by
  generalize hp : t.phase = p at fit
  cases fit with
  | announceImage data => exact h.announceImage hp hcap data
  | beginInit opcode payload => exact h.setOut w.pos (.inl hp) (.inl rfl) []
  | initPacket data => exact h.setOut w.pos (.inr hp) (.inl rfl) _
  | beginTransfer opcode payload hp' => exact h.setOut w.pos (hp ▸ hp') (.inr rfl) _
  | dataPacket data => exact h.dataPacket w hp data
  | validate opcode payload _ => exact h.validate hp
  | lateData data hs => exact h.stays hs data
  | inPlace opcode payload live hs => exact h.stays hs payload

end Ranged

/-! ## Sums -/

/-- The sums that are formed when a packet of firmware is taken in, and the image finished with it
if it is the last one. -/
def Transfer.sums [Flash F] (t : Transfer page) (flash : F) (data : List UInt8) : List Nat :=
  if t.image.isComplete then
    []
  else
    t.image.sumsOfAbsorb flash (t.counted data) ++
    match t.image.absorb flash (t.counted data) with
    | (.error _, _, _) => []
    | (.ok (), img, flash) =>
      if img.countPacket.2.isComplete then img.countPacket.2.sumsOfFinish flash else []

/-- No sum is greater than the capacity. -/
theorem Ranged.sums_le [Flash F] {cap : Nat} {t : Transfer page} {flash : Flash.Traced F}
    (h : Ranged cap t flash.calls) (w : WholePages page cap) (hp : t.phase = .receivingData)
    (data : List UInt8) : ∀ n ∈ t.sums flash data, n ≤ cap := by
  have smooth := h.smooth (by rw [hp]; decide) (by rw [hp]; rfl)
  intro n hn
  rw [Transfer.sums] at hn
  split at hn
  · exact absurd hn (by simp)
  · rename_i notDone
    obtain ⟨pages, bytes, holds, room, more⟩ :=
      (h.filling hp).more (Bool.eq_false_iff.mpr notDone)
    have fits := Nat.le_trans (Transfer.length_counted holds more data) h.len_le
    rcases List.mem_append.mp hn with hn | hn
    · exact Image.sumsOfAbsorb_le w (t.counted data) holds fits flash n hn
    · rcases Image.absorb_orderly w holds fits smooth with
        ⟨new, img', flash', habs, hh, _⟩ | ⟨e, _, _, img', flash', habs, _⟩
      · rw [habs] at hn
        dsimp only at hn
        split at hn
        · refine Image.sumsOfFinish_le hh.countPacket w ?_ flash' n hn
          rwa [List.length_append]
        · exact absurd hn (by simp)
      · rw [habs] at hn
        exact absurd hn (by simp)

/-! ## Runs -/

namespace Updater

variable {P R : Type} [Port P] [Restart R] [Flash F]

/-- The sums that are formed when a write is taken in: none, unless it is a packet of firmware. -/
def sums (u : Updater page P F R) (pipe : UInt8) (data : List UInt8) : List Nat :=
  match u.pipes.lead u.phase pipe data with
  | some (r, .step .dataPacket) => u.transfer.sums u.flash r.data
  | _ => []

/-- What a write does to the flash and to the image is what it does to the transfer by itself, and
so is the phase that it leads to, short of a reset. -/
theorem state_write (u : Updater page P F R) (turns : Nat) (pipe : UInt8) (data : List UInt8) :
    (u.write turns pipe data).state.flash = (u.transfer.take u.pipes u.flash pipe data).2 ∧
      (u.write turns pipe data).state.transfer.image =
        (u.transfer.take u.pipes u.flash pipe data).1.image ∧
      ((u.write turns pipe data).state.transfer =
          (u.transfer.take u.pipes u.flash pipe data).1 ∨
        (u.write turns pipe data).state.phase.isTerminal = true) := by
  rw [write_eq, Transfer.take, show u.transfer.phase = u.phase from rfl]
  rcases u.pipes.lead u.phase pipe data with _ | ⟨r, s | _⟩
  · exact ⟨rfl, rfl, .inl rfl⟩
  · have hsame := (step_sameUpdate u s r.data).trans (SameUpdate.flushResponses _)
    exact ⟨hsame.flash, congrArg Transfer.image hsame.transfer, .inl hsame.transfer⟩
  · obtain ⟨hterminal, himage, hflash, _⟩ := u.reset_transfer turns
    cases hreset : u.reset turns with
    | done v =>
        rw [hreset] at hterminal himage hflash
        exact ⟨hflash, himage, .inr hterminal⟩
    | waiting v =>
        rw [hreset] at hterminal himage hflash
        exact ⟨hflash, himage, .inr hterminal⟩

/-- A write adds calls on the flash, and programs it only while it takes in a packet of
firmware. -/
theorem calls_write (u : Updater page P (Flash.Traced F) R) (turns : Nat) (pipe : UInt8)
    (data : List UInt8) :
    ∃ new, (u.write turns pipe data).state.flash.calls = u.flash.calls ++ new ∧
      ((∃ c ∈ new, c.isWrite = true) →
        u.phase = .receivingData ∧ u.pipes.classify pipe data = some (.packet data)) := by
  rw [(u.state_write turns pipe data).1, Transfer.take]
  split
  · rename_i r s hlead
    obtain ⟨hr, hroute⟩ := UpdatePipes.lead_eq_some.mp hlead
    by_cases hs : s = .dataPacket
    · subst hs
      obtain ⟨hp, hpacket⟩ := firmware_of_route hroute
      obtain ⟨new, hnew⟩ := u.transfer.calls_step u.flash .dataPacket r.data
      rw [hpacket] at hr
      refine ⟨new, hnew.symm, fun _ ↦ ⟨hp, ?_⟩⟩
      rw [hr, UpdatePipes.classify_packet hr]
    · rcases u.transfer.calls_step_of_ne u.flash hs r.data with hsame | ⟨answer, hcommit⟩
      · exact ⟨[], hsame.trans (List.append_nil _).symm, by simp⟩
      · refine ⟨_, hcommit, ?_⟩
        rintro ⟨c, hc, hwrite⟩
        obtain rfl := List.mem_singleton.mp hc
        cases hwrite
  · exact ⟨[], (List.append_nil _).symm, by simp⟩

variable {pipes : UpdatePipes} {interval : UInt16} {session : Session} {link : Link P} {flash : F}
variable {restart : R} {visits : List Visit} {u : Updater page P (Flash.Traced F) R} {cap : UInt32}

/-- Throughout a run the update is in range, and the flash keeps its size. -/
theorem ranged_of_run (hcap : Flash.HasCapacity flash cap) (w : WholePages page cap.toNat)
    (h : Run (.fresh pipes interval session link (.fresh flash) restart) visits u) :
    Ranged cap.toNat u.transfer u.flash.calls ∧ Flash.Reached flash u.flash.flash := by
  induction h with
  | start => exact ⟨.fresh page interval _, .start⟩
  | meanwhile _ same ih =>
      rw [same.transfer, same.flash]
      exact ih
  | @write visits v turns pipe data _ ih =>
      obtain ⟨hranged, hreached⟩ := ih
      obtain ⟨hflash, himage, htransfer⟩ := v.state_write turns pipe data
      have htaken : Ranged cap.toNat (v.transfer.take v.pipes v.flash pipe data).1
          (v.transfer.take v.pipes v.flash pipe data).2.calls ∧
          Flash.Reached flash (v.transfer.take v.pipes v.flash pipe data).2.flash := by
        rw [Transfer.take]
        split
        · rename_i r s hlead
          obtain ⟨_, hroute⟩ := UpdatePipes.lead_eq_some.mp hlead
          refine ⟨hranged.step w (congrArg UInt32.toNat (hcap _ hreached)) (fits_of_route hroute),
            ?_⟩
          exact v.transfer.step_keeps (fun f : Flash.Traced F ↦ Flash.Reached flash f.flash)
            (fun _ address bs ↦ .program address bs) (fun _ ↦ .commit) hreached s r.data
        · exact ⟨hranged, hreached⟩
      rw [hflash]
      refine ⟨?_, htaken.2⟩
      rcases htransfer with hsame | hterminal
      · rw [hsame]
        exact htaken.1
      · exact .ended (himage ▸ htaken.1.received_le) (himage ▸ htaken.1.len_le) htaken.1.orderly
          (.inr hterminal)

/-- Over a flash that is made up of whole pages, whatever is written and whichever calls fail: every
page write is of one page, at a place for pages and within the capacity; none comes after one that
has failed; and writes are made only while a packet of firmware is taken in.  No more has come than
was announced and no more was announced than there is room for, so what remains is their difference;
and once all has come, the buffer is empty.  No sum that is formed for the counters on the way
exceeds a word. -/
theorem accesses_in_range (hcap : Flash.HasCapacity flash cap) (pos : 0 < page)
    (multiple : page ∣ cap.toNat)
    (h : Run (.fresh pipes interval session link (.fresh flash) restart) visits u) :
    (∀ address bs answer, .program address bs answer ∈ u.flash.calls →
      bs.length = page ∧ page ∣ address.toNat ∧ address.toNat + page ≤ cap.toNat) ∧
    (∀ before c after, u.flash.calls = before ++ c :: after → c.isFailedWrite = true →
      after = []) ∧
    (u.transfer.image.received.toNat ≤ u.transfer.image.len.toNat ∧
      u.transfer.image.len.toNat ≤ cap.toNat ∧
      u.transfer.image.remaining.toNat =
        u.transfer.image.len.toNat - u.transfer.image.received.toNat) ∧
    (u.phase = .receivingData → u.transfer.image.received = u.transfer.image.len →
      u.transfer.image.buffered = 0) ∧
    ∀ turns pipe data,
      (∃ new, (u.write turns pipe data).state.flash.calls = u.flash.calls ++ new ∧
        ((∃ c ∈ new, c.isWrite = true) →
          u.phase = .receivingData ∧ u.pipes.classify pipe data = some (.packet data))) ∧
      ∀ n ∈ u.sums pipe data, n < UInt32.size := by
  have w : WholePages page cap.toNat := ⟨pos, multiple, cap.toNat_lt⟩
  obtain ⟨hranged, _⟩ := ranged_of_run hcap w h
  refine ⟨fun address bs answer hc ↦ hranged.orderly.inRange _ hc, hranged.orderly.failsLast,
    ⟨hranged.received_le, hranged.len_le, ?_⟩, fun hp done ↦ ?_, fun turns pipe data ↦
    ⟨u.calls_write turns pipe data, fun n hn ↦ ?_⟩⟩
  · exact UInt32.toNat_sub_of_le _ _ (UInt32.le_iff_toNat_le.mpr hranged.received_le)
  · cases hranged.filling hp with
    | underway pages bytes holds _ more =>
        have hrec := holds.toNat_received more
        rw [done] at hrec
        omega
    | whole _ none => exact none
  · rw [sums] at hn
    split at hn
    · rename_i r hlead
      obtain ⟨_, hroute⟩ := UpdatePipes.lead_eq_some.mp hlead
      exact Nat.lt_of_le_of_lt (hranged.sums_le w (firmware_of_route hroute).1 r.data n hn) w.lt
    · exact absurd hn (by simp)

/-- Three bytes over two pages of two bytes, which are all that there is: the last byte is counted,
the padded page ends where the flash does, and its sums are these. -/
theorem accesses_in_range_last_page :
    ∃ (visits : List Visit) (u : Updater 2 Sim.Radio (Flash.Traced Sim.Flash) Watchdog),
      Run (.fresh ⟨8, 9, 10⟩ 0 (.fresh 2) (.fresh {}) (.fresh { capacity := 4 }) {}) visits u ∧
      u.sums 8 [3, 9] = [3, 4, 2] ∧ (∀ n ∈ u.sums 8 [3, 9], n < UInt32.size) ∧
      ∃ v, u.write 0 8 [3, 9] = .done v ∧ v.transfer.image.buffered = 0 ∧
        .program 2 [3, erased] (.ok ()) ∈ v.flash.calls ∧
        ∀ address bs answer,
          .program address bs answer ∈ v.flash.calls → address.toNat + 2 ≤ 4 := by
  have size := Sim.Flash.hasCapacity { capacity := 4 }
  have run := (((Run.start (u := (.fresh ⟨8, 9, 10⟩ 0 (.fresh 2) (.fresh {})
    (.fresh { capacity := 4 }) {} : Updater 2 Sim.Radio (Flash.Traced Sim.Flash) Watchdog))).write
      0 8 [3, 0, 0, 0]).write 0 10 [3]).write 0 8 [1, 2]
  have whole := run.write 0 8 [3, 9]
  obtain ⟨_, _, _, _, hwrite⟩ := accesses_in_range size (by decide) (by decide) run
  obtain ⟨hrange, _, _, hempty, _⟩ := accesses_in_range size (by decide) (by decide) whole
  refine ⟨_, _, run, rfl, (hwrite 0 8 [3, 9]).2, _, rfl, hempty rfl rfl, ?_, fun address bs answer
    hc ↦ (hrange address bs answer hc).2.2⟩
  exact List.mem_cons_of_mem _ List.mem_cons_self

end Updater

end RadioBoot
