import RadioBoot.Proofs.Image.Accumulator

/-!
# Writes in range

A flash that is made up of whole pages has room for the last page of an image as soon as it has room
for the image, although the padding goes behind its end (`WholePages.room`).  So all the writes of
an image that fits stay in range, and the first one that fails is the last call (`absorb_orderly`,
`finish_orderly`).

The counters are words of 32 bits, and a sum that wrapped would not show in them.  So the sums are
listed as numbers, every one that is formed while a packet is taken in or an image is finished
(`sumsOfAbsorb`, `sumsOfFinish`).  None is greater than the capacity.
-/

namespace RadioBoot

/-- So many bytes are made up of whole pages, and can be counted in a word. -/
structure WholePages (page cap : Nat) : Prop where
  pos : 0 < page
  dvd : page ∣ cap
  lt : cap < UInt32.size

/-- What has begun a page in front of the end has room for all of it. -/
theorem WholePages.room {page cap n : Nat} (w : WholePages page cap) (h : n * page < cap) :
    (n + 1) * page ≤ cap := by
  obtain ⟨q, rfl⟩ := w.dvd
  rw [Nat.mul_comm page q] at h ⊢
  exact Nat.mul_le_mul_right page (Nat.lt_of_mul_lt_mul_right h)

namespace Flash

/-- A call that stays in range: what is written is one page, at a place for pages, and it ends
within the capacity. -/
def Call.InRange (page cap : Nat) : Call → Prop
  | .program address bs _ => bs.length = page ∧ page ∣ address.toNat ∧ address.toNat + page ≤ cap
  | .commit _ => True

/-- Calls that all stay in range, and of which no write has failed. -/
def Smooth (page cap : Nat) (calls : List Call) : Prop :=
  ∀ c ∈ calls, c.InRange page cap ∧ c.isFailedWrite = false

/-- Pages that are written one after the other stay in range if the last one does. -/
theorem smooth_writes {page cap start : Nat} {pages : List (List UInt8)}
    (lt : cap < UInt32.size) (whole : ∀ p ∈ pages, p.length = page)
    (le : (start + pages.length) * page ≤ cap) : Smooth page cap (writes page start pages) := by
  intro c hc
  obtain ⟨k, hk, rfl⟩ := List.mem_mapIdx.mp hc
  have hend : (start + k + 1) * page ≤ (start + pages.length) * page :=
    Nat.mul_le_mul_right page (by omega)
  rw [Nat.succ_mul] at hend
  have haddress : (UInt32.ofNat ((start + k) * page)).toNat = (start + k) * page :=
    UInt32.toNat_ofNat_of_lt' (by omega)
  refine ⟨⟨whole _ (List.getElem_mem hk), ?_, ?_⟩, rfl⟩
  · rw [haddress]
    exact Nat.dvd_mul_left page _
  · rw [haddress]
    omega

/-- Calls that all stay in range, and of which none comes after a write that has failed. -/
structure Orderly (page cap : Nat) (calls : List Call) : Prop where
  inRange : ∀ c ∈ calls, c.InRange page cap
  failsLast : ∀ before c after, calls = before ++ c :: after → c.isFailedWrite = true → after = []

namespace Smooth

variable {page cap : Nat} {calls more : List Call}

theorem append (h : Smooth page cap calls) (h' : Smooth page cap more) :
    Smooth page cap (calls ++ more) := by
  intro c hc
  exact (List.mem_append.mp hc).elim (h c) (h' c)

theorem orderly (h : Smooth page cap calls) : Orderly page cap calls where
  inRange c hc := (h c hc).1
  failsLast before c after hcalls failed := by
    have hc : c ∈ calls := by
      rw [hcalls]
      exact List.mem_append_right _ List.mem_cons_self
    exact absurd failed (by simp [(h c hc).2])

/-- The next call may fail, and then it is the last one. -/
theorem concat (h : Smooth page cap calls) {c : Call} (hc : c.InRange page cap) :
    Orderly page cap (calls ++ [c]) where
  inRange d hd := by
    rcases List.mem_append.mp hd with hd | hd
    · exact (h d hd).1
    · exact List.mem_singleton.mp hd ▸ hc
  failsLast before d after hcalls failed := by
    rcases List.eq_nil_or_concat after with none | ⟨rest, e, rfl⟩
    · exact none
    · have hsplit : calls = before ++ d :: rest := by
        rw [List.concat_eq_append, ← List.cons_append, ← List.append_assoc] at hcalls
        exact (List.append_inj' hcalls rfl).1
      have hd : d ∈ calls := by
        rw [hsplit]
        exact List.mem_append_right _ List.mem_cons_self
      exact absurd failed (by simp [(h d hd).2])

end Smooth

end Flash

namespace Image

variable {page cap : Nat} {img : Image page} {pages : List (List UInt8)} {bytes : List UInt8}

/-! ## The next page -/

/-- What is buffered goes to a page that ends within the capacity. -/
theorem Holds.next_le (h : img.Holds pages bytes) (w : WholePages page cap)
    (some : 0 < img.buffered) (fits : bytes.length ≤ cap) : (pages.length + 1) * page ≤ cap := by
  have hlen := h.length_bytes
  exact w.room (by omega)

/-- As long as what has come fits, the address of the next page is where that page belongs. -/
theorem Holds.toNat_pageAddress (h : img.Holds pages bytes) (lt : cap < UInt32.size)
    (fits : bytes.length ≤ cap) : img.pageAddress.toNat = pages.length * page := by
  have hlen := h.length_bytes
  rw [h.pageAddress, UInt32.toNat_ofNat_of_lt' (by omega)]

theorem Holds.toNat_pagesWritten (h : img.Holds pages bytes) (w : WholePages page cap)
    (fits : bytes.length ≤ cap) : img.pagesWritten.toNat = pages.length := by
  have hlen := h.length_bytes
  have hmul : pages.length ≤ pages.length * page := Nat.le_mul_of_pos_right _ w.pos
  have lt := w.lt
  rw [h.pagesWritten, UInt32.toNat_ofNat_of_lt' (by omega)]

/-- Writing what is buffered stays in range, whatever comes of it. -/
theorem Holds.inRange_next (h : img.Holds pages bytes) (w : WholePages page cap)
    (some : 0 < img.buffered) (fits : bytes.length ≤ cap) (answer : Except FlashError Unit) :
    (Flash.Call.program img.pageAddress img.buffer answer).InRange page cap := by
  have hnext := h.next_le w some fits
  have haddress := h.toNat_pageAddress w.lt fits
  rw [Nat.succ_mul] at hnext
  refine ⟨img.length_buffer, ?_, ?_⟩
  · rw [haddress]
    exact Nat.dvd_mul_left page _
  · rw [haddress]
    exact hnext

/-- A stretch without a failure keeps the calls smooth. -/
theorem Advance.smooth {new : List (List UInt8)} {F : Type} {flash flash' : Flash.Traced F}
    (h : Advance pages new bytes flash flash' img) (lt : cap < UInt32.size)
    (fits : bytes.length ≤ cap) (hs : Flash.Smooth page cap flash.calls) :
    Flash.Smooth page cap flash'.calls := by
  have hlen := h.holds.length_bytes
  rw [List.length_append] at hlen
  rw [h.calls]
  exact hs.append (Flash.smooth_writes lt
    (fun p hp ↦ h.holds.length_page p (List.mem_append_right _ hp)) (by omega))

/-! ## Packets and the last page -/

variable {F : Type} [Flash F]

/-- Taking in a packet that fits keeps the calls smooth, or a write fails and is the last call. -/
theorem absorb_orderly (w : WholePages page cap) (h : img.Holds pages bytes) {data : List UInt8}
    (fits : bytes.length + data.length ≤ cap) {flash : Flash.Traced F}
    (hs : Flash.Smooth page cap flash.calls) :
    (∃ new, ∃ img' : Image page, ∃ flash' : Flash.Traced F,
      img.absorb flash data = (.ok (), img', flash') ∧ img'.Holds (pages ++ new) (bytes ++ data) ∧
      (img.buffered < page → img'.buffered < page) ∧ Flash.Smooth page cap flash'.calls) ∨
    ∃ e new taken, ∃ img' : Image page, ∃ flash' : Flash.Traced F,
      img.absorb flash data = (.error e, img', flash') ∧ taken <+: data ∧
      img'.Holds (pages ++ new) (bytes ++ taken) ∧ Flash.Orderly page cap flash'.calls := by
  rcases absorb_cases w.pos data h flash with
    ⟨new, img', flash', habs, _, hroom, adv⟩ |
    ⟨e, new, img', flash', flash'', habs, htaken, full, adv, hc⟩
  · refine .inl ⟨new, img', flash', habs, adv.holds, fun room ↦ hroom (.inr room), ?_⟩
    exact adv.smooth w.lt (by rwa [List.length_append]) hs
  · have hlen : (bytes ++ img.taken flash data).length ≤ cap := by
      have := htaken.length_le
      rw [List.length_append]
      omega
    refine .inr ⟨e, new, _, img', flash'', habs, htaken, adv.holds, ?_⟩
    rw [hc]
    exact (adv.smooth w.lt hlen hs).concat
      (adv.holds.inRange_next w (full.symm ▸ w.pos) hlen (.error e))

/-- So does finishing, which leaves nothing in the buffer. -/
theorem finish_orderly (w : WholePages page cap) (h : img.Holds pages bytes)
    (fits : bytes.length ≤ cap) {flash : Flash.Traced F}
    (hs : Flash.Smooth page cap flash.calls) :
    (∃ img' : Image page, ∃ flash' : Flash.Traced F,
      img.finish flash = (.ok (), img', flash') ∧ img'.received = img.received ∧
      img'.buffered = 0 ∧ Flash.Smooth page cap flash'.calls) ∨
    ∃ e, ∃ flash' : Flash.Traced F, img.finish flash = (.error e, img.pad, flash') ∧
      Flash.Orderly page cap flash'.calls := by
  rw [finish]
  split
  · rename_i none
    exact .inl ⟨img, flash, rfl, rfl, none, hs⟩
  · rename_i some
    have hnext := h.pad.inRange_next w (Nat.pos_of_ne_zero some) fits
    rcases img.pad.writePage_cases flash with ⟨flash', hw, hc⟩ | ⟨e, flash', hw, hc⟩
    · refine .inl ⟨img.pad.nextPage, flash', hw, rfl, rfl, ?_⟩
      rw [hc]
      refine hs.append fun c hmem ↦ ?_
      obtain rfl := List.mem_singleton.mp hmem
      exact ⟨hnext (.ok ()), rfl⟩
    · refine .inr ⟨e, flash', hw, ?_⟩
      rw [hc]
      exact hs.concat (hnext (.error e))

/-! ## Sums -/

/-- The sums that are formed when the page buffer is written: with the page in flash, the address of
the next one and the count of pages. -/
def sumsOfWrite (img : Image page) (flash : F) : List Nat :=
  match img.writePage flash with
  | (.ok (), _, _) => [img.pageAddress.toNat + page, img.pagesWritten.toNat + 1]
  | (.error _, _, _) => []

def sumsOfFull (img : Image page) (flash : F) : List Nat :=
  if img.buffered = page then img.sumsOfWrite flash else []

/-- The sums that are formed when a packet is taken in.  Each byte adds one to the count of bytes;
where a chunk is counted at once, the sum is the last of these. -/
def sumsOfAbsorb (img : Image page) (flash : F) : List UInt8 → List Nat
  | [] => []
  | b :: rest =>
    img.sumsOfFull flash ++
    match img.writeFull flash with
    | (.error _, _, _) => []
    | (.ok (), img, flash) =>
      (img.received.toNat + 1) :: ((img.push b).sumsOfFull flash ++
      match (img.push b).writeFull flash with
      | (.error _, _, _) => []
      | (.ok (), img, flash) => img.sumsOfAbsorb flash rest)

/-- The sums that are formed when an image is finished. -/
def sumsOfFinish (img : Image page) (flash : F) : List Nat :=
  if img.buffered = 0 then [] else img.pad.sumsOfWrite flash

theorem sumsOfWrite_le (h : img.Holds pages bytes) (w : WholePages page cap)
    (some : 0 < img.buffered) (fits : bytes.length ≤ cap) (flash : F) :
    ∀ n ∈ img.sumsOfWrite flash, n ≤ cap := by
  intro n hn
  have hnext := h.next_le w some fits
  have hcount : pages.length + 1 ≤ (pages.length + 1) * page := Nat.le_mul_of_pos_right _ w.pos
  rw [sumsOfWrite, h.toNat_pageAddress w.lt fits, h.toNat_pagesWritten w fits, ← Nat.succ_mul] at hn
  split at hn
  · simp only [List.mem_cons, List.not_mem_nil, or_false] at hn
    rcases hn with rfl | rfl <;> omega
  · exact absurd hn (by simp)

theorem sumsOfFull_le (h : img.Holds pages bytes) (w : WholePages page cap)
    (fits : bytes.length ≤ cap) (flash : F) : ∀ n ∈ img.sumsOfFull flash, n ≤ cap := by
  rw [sumsOfFull]
  split
  · rename_i full
    exact sumsOfWrite_le h w (full.symm ▸ w.pos) fits flash
  · simp

/-- While a packet is taken in that fits, no sum is greater than the capacity. -/
theorem sumsOfAbsorb_le (w : WholePages page cap) (data : List UInt8) :
    ∀ {img : Image page} {pages bytes} (_ : img.Holds pages bytes)
      (_ : bytes.length + data.length ≤ cap) (flash : Flash.Traced F),
      ∀ n ∈ img.sumsOfAbsorb flash data, n ≤ cap := by
  induction data with
  | nil =>
      intro img pages bytes _ _ flash n hn
      exact absurd hn (by simp [sumsOfAbsorb])
  | cons b rest ih =>
      intro img pages bytes h fits flash n hn
      have lt := w.lt
      rw [List.length_cons] at fits
      have hfirst := sumsOfFull_le h w (by omega) flash
      rw [sumsOfAbsorb, List.mem_append] at hn
      rcases hn with hn | hn
      · exact hfirst n hn
      rcases writeFull_cases w.pos h flash with
        ⟨new, img₁, flash₁, hw, room, adv⟩ | ⟨e, flash₁, hw, _⟩
      · have hcount : img₁.received.toNat = bytes.length := by
          rw [adv.holds.received, UInt32.toNat_ofNat_of_lt' (by omega)]
        have hpush := adv.holds.push room b
        have hlen : (bytes ++ [b]).length = bytes.length + 1 := by simp
        have hsecond := sumsOfFull_le hpush w (by omega) flash₁
        rw [hw] at hn
        simp only [List.mem_cons, List.mem_append] at hn
        rcases hn with rfl | hn | hn
        · omega
        · exact hsecond n hn
        · rcases writeFull_cases w.pos hpush flash₁ with
            ⟨more, img₂, flash₂, hw₂, _, adv₂⟩ | ⟨e, flash₂, hw₂, _⟩
          · rw [hw₂] at hn
            exact ih adv₂.holds (by omega) flash₂ n hn
          · rw [hw₂] at hn
            exact absurd hn (by simp)
      · rw [hw] at hn
        exact absurd hn (by simp)

/-- Nor is one when an image is finished. -/
theorem sumsOfFinish_le (h : img.Holds pages bytes) (w : WholePages page cap)
    (fits : bytes.length ≤ cap) (flash : F) : ∀ n ∈ img.sumsOfFinish flash, n ≤ cap := by
  rw [sumsOfFinish]
  split
  · simp
  · rename_i some
    exact sumsOfWrite_le h.pad w (Nat.pos_of_ne_zero some) fits flash

end Image

end RadioBoot
