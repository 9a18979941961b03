import RadioBoot.Image
import RadioBoot.Proofs.Flash.Trace

/-!
# The pages of an image

An image that has taken in some bytes holds them in two places: the pages that it has written, and
the front of its page buffer.  This file follows that split through every operation.  Taking in a
packet writes the pages that it fills, in order and each once, until a write fails
(`absorb_cases`); once the last byte is in, finishing writes what is left, and then the pages
written are the pages of the image, the last one padded (`finish_cases`).
-/

namespace RadioBoot

/-- A page that is short of `page` bytes, filled up with the value of erased flash. -/
def padded (page : Nat) (bs : List UInt8) : List UInt8 :=
  bs ++ .replicate (page - bs.length) erased

/-- The pages that `bytes` take, the last one padded. -/
def imagePages (page : Nat) (bytes : List UInt8) : List (List UInt8) :=
  (List.range ((bytes.length + page - 1) / page)).map fun k ↦
    padded page ((bytes.drop (k * page)).take page)

/-- The addresses of the pages of an image do not wrap. -/
theorem page_address_lt {page : Nat} (pos : 0 < page) {bytes : List UInt8}
    (h : bytes.length < UInt32.size) {k : Nat} (hk : k < (imagePages page bytes).length) :
    (UInt32.ofNat (k * page)).toNat = k * page := by
  rw [imagePages, List.length_map, List.length_range, Nat.lt_div_iff_mul_lt pos,
    Nat.mul_comm] at hk
  rw [Nat.mul_comm]
  exact UInt32.toNat_ofNat_of_lt' (Nat.lt_of_le_of_lt (by omega) h)

/-- The page of `bytes` that is numbered `k` is cut out at its place. -/
theorem drop_flatten_of_length {page : Nat} :
    ∀ {pages : List (List UInt8)} (_ : ∀ p ∈ pages, p.length = page) (rest : List UInt8),
      (List.range pages.length).map (fun k ↦ ((pages.flatten ++ rest).drop (k * page)).take page) =
        pages := by
  intro pages
  induction pages with
  | nil => intro _ _; rfl
  | cons p ps ih =>
      intro h rest
      have hp : p.length = page := h p (by simp)
      rw [List.length_cons, List.range_succ_eq_map, List.map_cons, List.map_map]
      congr 1
      · simp [← hp]
      · refine Eq.trans (List.map_congr_left fun k _ ↦ ?_) (ih (fun q hq ↦ h q (by simp [hq])) rest)
        have hk : (k + 1) * page = p.length + k * page := by rw [hp, Nat.succ_mul, Nat.add_comm]
        simp only [Function.comp_apply, Nat.succ_eq_add_one, hk, List.flatten_cons,
          List.append_assoc, List.drop_append, List.drop_eq_nil_of_le, Nat.le_add_right,
          List.nil_append, Nat.add_sub_cancel_left]

namespace Image

variable {page : Nat} {img : Image page} {pages : List (List UInt8)} {bytes : List UInt8}

/-- The image has taken in `bytes`: some of them are the `pages` already written, the others wait at
the front of the buffer, and the counters say so. -/
structure Holds (img : Image page) (pages : List (List UInt8)) (bytes : List UInt8) : Prop where
  flatten : pages.flatten ++ img.buffer.take img.buffered = bytes
  length_page : ∀ p ∈ pages, p.length = page
  received : img.received = .ofNat bytes.length
  pageAddress : img.pageAddress = .ofNat (pages.length * page)
  pagesWritten : img.pagesWritten = .ofNat pages.length

theorem isComplete_iff : img.isComplete = true ↔ img.received = img.len := beq_iff_eq

/-- A byte set behind the front of the buffer makes the front longer. -/
theorem take_set_buffered (img : Image page) (room : img.buffered < page) (b : UInt8) :
    (img.buffer.set img.buffered b).take (img.buffered + 1) =
      img.buffer.take img.buffered ++ [b] := by
  have hlt : img.buffered < img.buffer.length := by rw [img.length_buffer]; exact room
  rw [List.take_add_one, List.take_set_of_le (Nat.le_refl _), List.getElem?_set_self hlt]
  rfl

namespace Holds

/-- A started image has taken in nothing. -/
theorem start (img : Image page) (len : UInt32) : (img.start len).Holds [] [] where
  flatten := rfl
  length_page := by simp
  received := rfl
  pageAddress := by simp [Image.start, fresh]
  pagesWritten := rfl

/-- What is taken in is counted page by page. -/
theorem length_bytes (h : img.Holds pages bytes) :
    bytes.length = pages.length * page + img.buffered := by
  have hfit : img.buffered ≤ img.buffer.length := by rw [img.length_buffer]; exact img.buffered_le
  rw [← h.flatten, List.length_append, List.length_take, Nat.min_eq_left hfit,
    List.length_flatten, List.map_congr_left h.length_page, List.map_const', List.sum_replicate_nat]

/-- As long as no more has come than was announced, the counter of bytes does not wrap. -/
theorem toNat_received_of_le (h : img.Holds pages bytes) (le : bytes.length ≤ img.len.toNat) :
    img.received.toNat = bytes.length := by
  rw [h.received, UInt32.toNat_ofNat_of_lt' (Nat.lt_of_le_of_lt le img.len.toNat_lt)]

theorem toNat_received (h : img.Holds pages bytes) (more : bytes.length < img.len.toNat) :
    img.received.toNat = bytes.length := h.toNat_received_of_le (Nat.le_of_lt more)

/-- As long as more is to come, that is the rest of the announced length. -/
theorem toNat_remaining (h : img.Holds pages bytes) (more : bytes.length < img.len.toNat) :
    img.remaining.toNat = img.len.toNat - bytes.length := by
  have hrec := h.toNat_received more
  rw [remaining, UInt32.toNat_sub_of_le _ _ (UInt32.le_iff_toNat_le.mpr (by omega)), hrec]

/-- One more byte in the buffer is one more byte taken in. -/
theorem push (h : img.Holds pages bytes) (room : img.buffered < page) (b : UInt8) :
    (img.push b).Holds pages (bytes ++ [b]) := by
  constructor
  · simp only [Image.push, room, dif_pos, take_set_buffered _ room, ← h.flatten, List.append_assoc]
  · exact h.length_page
  · simp only [Image.push, room, dif_pos, h.received, List.length_append, List.length_singleton,
      UInt32.ofNat_add]
    rfl
  · simp only [Image.push, room, dif_pos, h.pageAddress]
  · simp only [Image.push, room, dif_pos, h.pagesWritten]

/-- The interval of the receipts and the count of packets have no part in it. -/
theorem setInterval (h : img.Holds pages bytes) (interval : UInt16) :
    (img.setInterval interval).Holds pages bytes :=
  ⟨h.flatten, h.length_page, h.received, h.pageAddress, h.pagesWritten⟩

theorem countPacket (h : img.Holds pages bytes) : img.countPacket.2.Holds pages bytes :=
  ⟨h.flatten, h.length_page, h.received, h.pageAddress, h.pagesWritten⟩

/-- A full buffer that is written becomes the next page. -/
theorem nextPage (h : img.Holds pages bytes) (full : img.buffered = page) :
    img.nextPage.Holds (pages ++ [img.buffer]) bytes := by
  have hall : img.buffer.take img.buffered = img.buffer :=
    List.take_of_length_le (Nat.le_of_eq (img.length_buffer.trans full.symm))
  constructor
  · simp only [Image.nextPage, List.flatten_append, List.flatten_singleton, List.take_zero,
      List.append_nil, ← h.flatten, hall]
  · intro p hp
    rcases List.mem_append.mp hp with hp | hp
    · exact h.length_page p hp
    · rw [List.mem_singleton.mp hp, img.length_buffer]
  · exact h.received
  · simp only [Image.nextPage, h.pageAddress, ← UInt32.ofNat_add, List.length_append,
      List.length_singleton, Nat.succ_mul]
  · simp only [Image.nextPage, h.pagesWritten, List.length_append, List.length_singleton,
      UInt32.ofNat_add]
    rfl

end Holds

/-! ## Writing to a traced flash -/

variable {F : Type} [Flash F]

open Flash (writes)

/-- A stretch in which no write failed: `img` has come to hold `bytes`, and on the way the pages
`new` were added to `pages` and written to `flash`. -/
structure Advance (pages new : List (List UInt8)) (bytes : List UInt8)
    (flash flash' : Flash.Traced F) (img : Image page) : Prop where
  holds : img.Holds (pages ++ new) bytes
  calls : flash'.calls = flash.calls ++ writes page pages.length new

namespace Advance

variable {new more : List (List UInt8)} {bytes' : List UInt8}
variable {flash flash' flash'' : Flash.Traced F} {img' : Image page}

omit [Flash F] in
/-- Nothing has happened yet. -/
theorem refl (h : img.Holds pages bytes) (flash : Flash.Traced F) :
    Advance pages [] bytes flash flash img where
  holds := by rwa [List.append_nil]
  calls := by rw [Flash.writes_nil, List.append_nil]

omit [Flash F] in
/-- One stretch after the other. -/
theorem trans (h : Advance pages new bytes flash flash' img)
    (h' : Advance (pages ++ new) more bytes' flash' flash'' img') :
    Advance pages (new ++ more) bytes' flash flash'' img' where
  holds := by rw [← List.append_assoc]; exact h'.holds
  calls := by
    rw [h'.calls, h.calls, Flash.writes_append, List.length_append, List.append_assoc]

end Advance

/-- The call that failed to write the page buffer of `img`. -/
def failedWrite (img : Image page) (e : FlashError) : Flash.Call :=
  .program img.pageAddress img.buffer (.error e)

/-- Writing the page buffer either puts the next page into flash or leaves the image as it is. -/
theorem writePage_cases (img : Image page) (flash : Flash.Traced F) :
    (∃ flash' : Flash.Traced F, img.writePage flash = (.ok (), img.nextPage, flash') ∧
      flash'.calls = flash.calls ++ [.program img.pageAddress img.buffer (.ok ())]) ∨
    ∃ e, ∃ flash' : Flash.Traced F, img.writePage flash = (.error e, img, flash') ∧
      flash'.calls = flash.calls ++ [img.failedWrite e] := by
  have hcalls := flash.calls_program img.pageAddress img.buffer
  rw [writePage]
  cases hx : Flash.program flash img.pageAddress img.buffer with
  | mk answer flash' =>
      rw [hx] at hcalls
      cases answer with
      | ok _ => exact .inl ⟨flash', rfl, hcalls⟩
      | error e => exact .inr ⟨e, flash', rfl, hcalls⟩

/-- A full buffer is written or the write fails; unless it fails, there is room afterwards. -/
theorem writeFull_cases (pos : 0 < page) (h : img.Holds pages bytes) (flash : Flash.Traced F) :
    (∃ new, ∃ img' : Image page, ∃ flash' : Flash.Traced F,
      img.writeFull flash = (.ok (), img', flash') ∧ img'.buffered < page ∧
      Advance pages new bytes flash flash' img') ∨
    ∃ e, ∃ flash' : Flash.Traced F, img.writeFull flash = (.error e, img, flash') ∧
      img.buffered = page ∧ flash'.calls = flash.calls ++ [img.failedWrite e] := by
  rw [writeFull]
  split
  · rename_i full
    rcases img.writePage_cases flash with ⟨flash', hw, hc⟩ | ⟨e, flash', hw, hc⟩
    · refine .inl ⟨[img.buffer], img.nextPage, flash', hw, pos, h.nextPage full, ?_⟩
      rw [hc, Flash.writes_singleton, h.pageAddress]
    · exact .inr ⟨e, flash', hw, full, hc⟩
  · rename_i notFull
    exact .inl ⟨[], img, flash, rfl, Nat.lt_of_le_of_ne img.buffered_le notFull, .refl h flash⟩

/-- The bytes of a packet that are counted: all of them, unless a write fails first. -/
def taken (img : Image page) (flash : F) : List UInt8 → List UInt8
  | [] => []
  | b :: rest =>
    match img.writeFull flash with
    | (.error _, _, _) => []
    | (.ok (), img, flash) =>
      match (img.push b).writeFull flash with
      | (.error _, _, _) => [b]
      | (.ok (), img, flash) => b :: img.taken flash rest

/-- Taking in a packet writes the pages that it fills, in order and each once.  A write that fails
ends it: the bytes counted then are those up to the end of the page that could not be written. -/
theorem absorb_cases (pos : 0 < page) (data : List UInt8) :
    ∀ {img : Image page} {pages bytes} (_ : img.Holds pages bytes) (flash : Flash.Traced F),
      (∃ new, ∃ img' : Image page, ∃ flash' : Flash.Traced F,
        img.absorb flash data = (.ok (), img', flash') ∧ img.taken flash data = data ∧
        (data ≠ [] ∨ img.buffered < page → img'.buffered < page) ∧
        Advance pages new (bytes ++ data) flash flash' img') ∨
      ∃ e new, ∃ img' : Image page, ∃ flash' flash'' : Flash.Traced F,
        img.absorb flash data = (.error e, img', flash'') ∧ img.taken flash data <+: data ∧
        img'.buffered = page ∧
        Advance pages new (bytes ++ img.taken flash data) flash flash' img' ∧
        flash''.calls = flash'.calls ++ [img'.failedWrite e] := by
  induction data with
  | nil =>
      intro img pages bytes h flash
      refine .inl ⟨[], img, flash, rfl, rfl, ?_, ?_⟩
      · rintro (hne | hlt)
        · exact absurd rfl hne
        · exact hlt
      · rw [List.append_nil]
        exact .refl h flash
  | cons b rest ih =>
      intro img pages bytes h flash
      rw [absorb, taken]
      -- a page left over from a failed write goes first
      rcases writeFull_cases pos h flash with
        ⟨new, img₁, flash₁, hw, room, adv⟩ | ⟨e, flash₁, hw, full, hc⟩
      · rw [hw]
        have hpush := adv.holds.push room b
        rcases writeFull_cases pos hpush flash₁ with
          ⟨more, img₂, flash₂, hw₂, room₂, adv₂⟩ | ⟨e, flash₂, hw₂, full, hc⟩
        · simp only [hw₂]
          have adv₂ := adv.trans adv₂
          have hcons : ∀ xs : List UInt8, bytes ++ b :: xs = bytes ++ [b] ++ xs := by simp
          rcases ih adv₂.holds flash₂ with
            ⟨last, img₃, flash₃, ha, htaken, hroom, adv₃⟩ |
            ⟨e, last, img₃, flash₃, flash₄, ha, htaken, full, adv₃, hc⟩
          · refine .inl ⟨new ++ more ++ last, img₃, flash₃, ha, congrArg (b :: ·) htaken,
              fun _ ↦ hroom (.inr room₂), ?_⟩
            rw [hcons]
            exact adv₂.trans adv₃
          · refine .inr ⟨e, new ++ more ++ last, img₃, flash₃, flash₄, ha,
              List.cons_prefix_cons.mpr ⟨rfl, htaken⟩, full, ?_, hc⟩
            rw [hcons]
            exact adv₂.trans adv₃
        · simp only [hw₂]
          exact .inr ⟨e, new, img₁.push b, flash₁, flash₂, rfl, ⟨rest, rfl⟩, full,
            ⟨hpush, adv.calls⟩, hc⟩
      · rw [hw]
        refine .inr ⟨e, [], img, flash, flash₁, rfl, List.nil_prefix, full, ?_, hc⟩
        rw [List.append_nil]
        exact .refl h flash

/-! ## The last page -/

/-- A page that is full is not padded. -/
theorem padded_of_length {bs : List UInt8} (h : bs.length = page) : padded page bs = bs := by
  rw [padded, h, Nat.sub_self, List.replicate_zero, List.append_nil]

namespace Holds

/-- The pages already written are cut out of the bytes, one after the other. -/
theorem eq_cut (h : img.Holds pages bytes) :
    pages = (List.range pages.length).map fun k ↦ (bytes.drop (k * page)).take page := by
  have hcut := drop_flatten_of_length h.length_page (img.buffer.take img.buffered)
  rw [h.flatten] at hcut
  exact hcut.symm

/-- What is not written yet stands behind the written pages. -/
theorem drop_bytes (h : img.Holds pages bytes) :
    bytes.drop (pages.length * page) = img.buffer.take img.buffered := by
  have hlen : pages.flatten.length = pages.length * page := by
    rw [List.length_flatten, List.map_congr_left h.length_page, List.map_const',
      List.sum_replicate_nat]
  rw [← h.flatten, ← hlen, List.drop_left]

/-- The pages already written are the pages of the image, as far as they go. -/
theorem map_padded (h : img.Holds pages bytes) :
    (List.range pages.length).map (fun k ↦ padded page ((bytes.drop (k * page)).take page)) =
      pages := by
  refine Eq.trans (List.map_congr_left fun k hk ↦ padded_of_length ?_) h.eq_cut.symm
  have hk : k < pages.length := List.mem_range.mp hk
  have hmul : (k + 1) * page ≤ pages.length * page := Nat.mul_le_mul_right page hk
  rw [Nat.succ_mul] at hmul
  rw [List.length_take, List.length_drop, h.length_bytes]
  omega

/-- With an empty buffer the pages written are the whole image. -/
theorem imagePages_of_empty (pos : 0 < page) (h : img.Holds pages bytes) (none : img.buffered = 0) :
    imagePages page bytes = pages := by
  have hcount : (bytes.length + page - 1) / page = pages.length := by
    rw [h.length_bytes, none]
    exact Nat.div_eq_of_lt_le (by omega) (by rw [Nat.succ_mul]; omega)
  rw [imagePages, hcount, h.map_padded]

/-- Otherwise one more page is missing, which the padded buffer holds. -/
theorem imagePages_of_partial (h : img.Holds pages bytes) (some : 0 < img.buffered) :
    imagePages page bytes = pages ++ [img.pad.buffer] := by
  have hfit := img.buffered_le
  have hcount : (bytes.length + page - 1) / page = pages.length + 1 := by
    rw [h.length_bytes]
    exact Nat.div_eq_of_lt_le (by rw [Nat.succ_mul]; omega) (by simp only [Nat.succ_mul]; omega)
  have hlen : (img.buffer.take img.buffered).length = img.buffered := by
    rw [List.length_take, img.length_buffer]
    omega
  rw [imagePages, hcount, List.range_succ, List.map_append, h.map_padded, List.map_singleton,
    h.drop_bytes, List.take_of_length_le (by omega), padded, hlen]
  rfl

end Holds

/-- Finishing writes what is left, so that the pages written are the pages of the image; or the last
write fails. -/
theorem finish_cases (pos : 0 < page) (h : img.Holds pages bytes) (flash : Flash.Traced F) :
    (∃ last, ∃ img' : Image page, ∃ flash' : Flash.Traced F,
      img.finish flash = (.ok (), img', flash') ∧ img'.received = img.received ∧
      pages ++ last = imagePages page bytes ∧
      flash'.calls = flash.calls ++ writes page pages.length last) ∨
    ∃ e, ∃ flash' : Flash.Traced F, img.finish flash = (.error e, img.pad, flash') ∧
      flash'.calls = flash.calls ++ [img.pad.failedWrite e] := by
  rw [finish]
  split
  · rename_i none
    refine .inl ⟨[], img, flash, rfl, rfl, ?_, (Advance.refl h flash).calls⟩
    rw [List.append_nil, h.imagePages_of_empty pos none]
  · rename_i some
    rcases img.pad.writePage_cases flash with ⟨flash', hw, hc⟩ | ⟨e, flash', hw, hc⟩
    · refine .inl ⟨[img.pad.buffer], img.pad.nextPage, flash', hw, rfl, ?_, ?_⟩
      · rw [h.imagePages_of_partial (Nat.pos_of_ne_zero some)]
      · rw [hc, Flash.writes_singleton, ← h.pageAddress]
        rfl
    · exact .inr ⟨e, flash', hw, hc⟩

/-! ## What writing leaves alone -/

/-- What was announced, and how receipts are counted. -/
def terms (img : Image page) : UInt32 × UInt16 × UInt16 := (img.len, img.packets, img.interval)

omit [Flash F] in
theorem terms_push (img : Image page) (b : UInt8) : (img.push b).terms = img.terms := by
  rw [push]
  split <;> rfl

theorem terms_writePage (img : Image page) (flash : F) :
    (img.writePage flash).2.1.terms = img.terms := by
  rw [writePage]
  split <;> rfl

theorem terms_writeFull (img : Image page) (flash : F) :
    (img.writeFull flash).2.1.terms = img.terms := by
  rw [writeFull]
  split
  · exact img.terms_writePage flash
  · rfl

theorem terms_finish (img : Image page) (flash : F) :
    (img.finish flash).2.1.terms = img.terms := by
  rw [finish]
  split
  · rfl
  · exact img.pad.terms_writePage flash

/-- A packet changes neither the announced length nor the count of packets. -/
theorem terms_absorb (data : List UInt8) :
    ∀ (img : Image page) (flash : F), (img.absorb flash data).2.1.terms = img.terms := by
  induction data with
  | nil => intro _ _; rfl
  | cons b rest ih =>
      intro img flash
      have hfirst := img.terms_writeFull flash
      rw [absorb]
      split
      · rename_i hw
        rwa [hw] at hfirst
      · rename_i img₁ flash₁ hw
        rw [hw] at hfirst
        have hsecond := (img₁.push b).terms_writeFull flash₁
        split
        · rename_i hw₂
          rw [hw₂] at hsecond
          exact hsecond.trans ((img₁.terms_push b).trans hfirst)
        · rename_i img₂ flash₂ hw₂
          rw [hw₂] at hsecond
          exact (ih img₂ flash₂).trans (hsecond.trans ((img₁.terms_push b).trans hfirst))

end Image

end RadioBoot
