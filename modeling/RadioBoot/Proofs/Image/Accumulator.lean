import RadioBoot.Proofs.Image.Pages
import RadioBoot.Sim.Flash

/-!
# The page accumulator

An image takes in packets of any size while any write to the flash may fail, and after a failure it
is given more, or an attempt is made to finish it.  Nothing is lost over this and nothing is written
twice (`accumulates`): the writes that succeed are the pages of what has been counted, each at its
place, and the rest waits at the front of the buffer.  A page that could not be written is still
there when the next packet comes, and goes first.

A packet can also be moved a chunk at a time, as much of it as there is room for in the buffer.
Every turn of that loop but the last leaves an empty buffer behind, so that it ends, also when it
starts without any room, and what it comes to is the same (`loop_eq_absorb`).
-/

namespace RadioBoot

namespace Flash

/-- The page that a call has put into flash, and where. -/
def Call.written? : Call → Option (UInt32 × List UInt8)
  | .program address page (.ok ()) => some (address, page)
  | _ => none

/-- The pages that have been put into flash, in order. -/
def written (calls : List Call) : List (UInt32 × List UInt8) := calls.filterMap Call.written?

@[simp] theorem written_append (calls calls' : List Call) :
    written (calls ++ calls') = written calls ++ written calls' :=
  List.filterMap_append ..

/-- These pages, each at its place, from the one numbered `start` on. -/
def placed (page start : Nat) (pages : List (List UInt8)) : List (UInt32 × List UInt8) :=
  pages.mapIdx fun k p ↦ (.ofNat ((start + k) * page), p)

@[simp] theorem length_placed (page start : Nat) (pages : List (List UInt8)) :
    (placed page start pages).length = pages.length :=
  List.length_mapIdx

@[simp] theorem map_snd_placed (page start : Nat) (pages : List (List UInt8)) :
    (placed page start pages).map Prod.snd = pages :=
  List.ext_getElem (by simp) fun k _ _ ↦ by simp [placed]

theorem placed_append (page start : Nat) (pages new : List (List UInt8)) :
    placed page start (pages ++ new) =
      placed page start pages ++ placed page (start + pages.length) new := by
  simp only [placed, List.mapIdx_append, Nat.add_assoc, Nat.add_comm pages.length]

/-- Pages that are written without a failure are put at their places. -/
theorem written_writes (page : Nat) (pages : List (List UInt8)) :
    ∀ start, written (writes page start pages) = placed page start pages := by
  induction pages with
  | nil => intro _; rfl
  | cons p ps ih =>
      intro start
      rw [← List.singleton_append, writes_append, written_append, ih, placed_append]
      rfl

end Flash

namespace Image

variable {page : Nat} {img : Image page} {pages : List (List UInt8)} {bytes : List UInt8}
variable {F : Type} [Flash F]

open Flash (writes written placed)

/-! ## Chunk by chunk -/

/-- Copy as much of `rest` into the buffer as there is room for, and count it. -/
def fill (img : Image page) (rest : List UInt8) : Image page :=
  let chunk := rest.take (page - img.buffered)
  have fits : img.buffered + chunk.length ≤ page := by
    have := img.buffered_le
    simp only [chunk, List.length_take]
    omega
  { img with
    received := img.received + .ofNat chunk.length
    buffer := img.buffer.take img.buffered ++ chunk ++ img.buffer.drop (img.buffered + chunk.length)
    buffered := img.buffered + chunk.length
    length_buffer := by
      have := img.length_buffer
      simp only [List.length_append, List.length_take, List.length_drop]
      omega
    buffered_le := fits }

/-- One turn of the loop: copy a chunk, and write the page if that has filled it. -/
def turn (img : Image page) (flash : F) (rest : List UInt8) :
    Except FlashError Unit × Image page × F :=
  (img.fill rest).writeFull flash

/-- Move `rest` a chunk at a time, in at most so many turns. -/
def loop : Nat → Image page → F → List UInt8 → Option (Except FlashError Unit × Image page × F)
  | _, img, flash, [] => some (.ok (), img, flash)
  | 0, _, _, _ :: _ => none
  | n + 1, img, flash, b :: rest =>
    match img.turn flash (b :: rest) with
    | (.error e, img', flash') => some (.error e, img', flash')
    | (.ok (), img', flash') => loop n img' flash' ((b :: rest).drop (page - img.buffered))

omit [Flash F] in
theorem fill_nil (img : Image page) : img.fill [] = img := by
  have := img.length_buffer
  ext1 <;> simp [fill]

omit [Flash F] in
/-- Without room nothing is copied. -/
theorem fill_of_full (full : img.buffered = page) (rest : List UInt8) : img.fill rest = img := by
  have := img.length_buffer
  ext1 <;> simp [fill, full]

omit [Flash F] in
theorem buffered_fill (img : Image page) (rest : List UInt8) :
    (img.fill rest).buffered = img.buffered + min (page - img.buffered) rest.length := by
  simp [fill]

omit [Flash F] in
/-- A chunk is copied a byte at a time. -/
theorem fill_cons (room : img.buffered < page) (b : UInt8) (rest : List UInt8) :
    img.fill (b :: rest) = (img.push b).fill rest := by
  have hroom : page - img.buffered = page - (img.buffered + 1) + 1 := by omega
  have htake := img.take_set_buffered room b
  have hdrop (n : Nat) : (img.buffer.set img.buffered b).drop (img.buffered + 1 + n) =
      img.buffer.drop (img.buffered + (n + 1)) := by
    rw [List.drop_set_of_lt (by omega), Nat.add_assoc, Nat.add_comm 1 n]
  ext1
  case buffer => simp [fill, push, room, hroom, htake, hdrop]
  case received => simp [fill, push, room, hroom, UInt32.add_assoc, UInt32.add_comm 1]
  case buffered => simp [fill, push, room, hroom]; omega
  all_goals simp [fill, push, room]

theorem writeFull_of_room (room : img.buffered < page) (flash : F) :
    img.writeFull flash = (.ok (), img, flash) :=
  if_neg (Nat.ne_of_lt room)

/-- What is taken in goes the way of the first chunk, and then the rest of it. -/
theorem absorb_of_room (data : List UInt8) :
    ∀ {img : Image page} (_ : img.buffered < page) (flash : F),
      img.absorb flash data =
        match img.turn flash data with
        | (.error e, img', flash') => (.error e, img', flash')
        | (.ok (), img', flash') => img'.absorb flash' (data.drop (page - img.buffered)) := by
  induction data with
  | nil =>
      intro img room flash
      rw [turn, fill_nil, writeFull_of_room room, List.drop_nil]
  | cons b rest ih =>
      intro img room flash
      have hpush : (img.push b).buffered = img.buffered + 1 := by simp [push, room]
      rw [absorb, writeFull_of_room room, turn, fill_cons room]
      rcases Nat.lt_or_ge (img.push b).buffered page with more | full
      · have hdrop : (b :: rest).drop (page - img.buffered) =
            rest.drop (page - (img.push b).buffered) := by
          rw [hpush, show page - img.buffered = page - (img.buffered + 1) + 1 by omega,
            List.drop_succ_cons]
        simp only [writeFull_of_room more, hdrop]
        exact ih more flash
      · have full : (img.push b).buffered = page := Nat.le_antisymm (img.push b).buffered_le full
        have hdrop : (b :: rest).drop (page - img.buffered) = rest := by
          rw [show page - img.buffered = 1 by omega]
          rfl
        rcases hw : (img.push b).writeFull flash with ⟨_ | _, img', flash'⟩ <;>
          simp only [fill_of_full full, hdrop, hw]

/-- Any byte waits until the page that is in its way has been written. -/
theorem absorb_of_full (pos : 0 < page) (full : img.buffered = page) {data : List UInt8}
    (ne : data ≠ []) (flash : F) :
    img.absorb flash data =
      match img.writePage flash with
      | (.error e, img', flash') => (.error e, img', flash')
      | (.ok (), img', flash') => img'.absorb flash' data := by
  obtain ⟨b, rest, rfl⟩ := List.exists_cons_of_ne_nil ne
  rw [absorb, writeFull, if_pos full, writePage]
  cases hx : Flash.program flash img.pageAddress img.buffer with
  | mk answer flash' =>
      cases answer with
      | error e => rfl
      | ok _ =>
          have room : img.nextPage.buffered < page := pos
          simp only [absorb, writeFull_of_room room]

/-- A turn moves a chunk, and the rest of the packet is left to the turns after it. -/
theorem absorb_turn (pos : 0 < page) (img : Image page) {data : List UInt8} (ne : data ≠ [])
    (flash : F) :
    img.absorb flash data =
      match img.turn flash data with
      | (.error e, img', flash') => (.error e, img', flash')
      | (.ok (), img', flash') => img'.absorb flash' (data.drop (page - img.buffered)) := by
  rcases Nat.lt_or_ge img.buffered page with room | full
  · exact absorb_of_room data room flash
  · have full : img.buffered = page := Nat.le_antisymm img.buffered_le full
    rw [absorb_of_full pos full ne, turn, fill_of_full full, writeFull, if_pos full, full,
      Nat.sub_self, List.drop_zero]

/-- A turn that succeeds has moved all that there was, or leaves an empty buffer behind. -/
theorem turn_ok {img' : Image page} {flash flash' : F} {data : List UInt8}
    (h : img.turn flash data = (.ok (), img', flash')) :
    data.drop (page - img.buffered) = [] ∨
      img'.buffered = 0 ∧
      img.buffered + data.length = page + (data.drop (page - img.buffered)).length := by
  have hfill := img.buffered_fill data
  have hfit := img.buffered_le
  rw [turn, writeFull] at h
  split at h
  · rename_i full
    rw [full] at hfill
    refine .inr ⟨?_, by rw [List.length_drop]; omega⟩
    rw [writePage] at h
    split at h
    · cases h
      rfl
    · cases h
  · rename_i notFull
    have := (img.fill data).buffered_le
    exact .inl (List.drop_eq_nil_of_le (by omega))

/-- The loop ends after as many turns as the buffer and the packet take pages, and comes to what
the packet comes to byte by byte. -/
theorem loop_eq_absorb (pos : 0 < page) (n : Nat) :
    ∀ (img : Image page) (flash : F) (data : List UInt8), img.buffered + data.length ≤ n * page →
      img.loop n flash data = some (img.absorb flash data) := by
  induction n with
  | zero =>
      intro img flash data h
      obtain rfl : data = [] := List.length_eq_zero_iff.mp (by omega)
      rfl
  | succ n ih =>
      intro img flash data h
      cases data with
      | nil => rfl
      | cons b rest =>
          rw [loop, absorb_turn pos img (List.cons_ne_nil b rest)]
          cases hturn : img.turn flash (b :: rest) with
          | mk answer x =>
              cases answer with
              | error e => rfl
              | ok _ =>
                  rcases turn_ok hturn with hall | ⟨hempty, hrest⟩
                  · simp only [hall]
                    rw [absorb]
                    cases n <;> rfl
                  · refine ih _ _ _ ?_
                    rw [hempty]
                    rw [Nat.succ_mul] at h
                    omega

/-! ## Runs -/

/-- What can come of an image once it has been started, over a flash that answers as it likes: it is
given packets, and attempts to finish it fail.  With it stand the bytes that have been counted. -/
inductive Intake (flash₀ : F) : List UInt8 → Image page → Flash.Traced F → Prop
  | start (img : Image page) (len : UInt32) : Intake flash₀ [] (img.start len) (.fresh flash₀)
  | packet {bytes img flash} (data : List UInt8) : Intake flash₀ bytes img flash →
      Intake flash₀ (bytes ++ img.taken flash data) (img.absorb flash data).2.1
        (img.absorb flash data).2.2
  | unfinished {bytes img flash e img' flash'} : Intake flash₀ bytes img flash →
      img.finish flash = (.error e, img', flash') → Intake flash₀ bytes img' flash'

/-- All of `bytes` is in flash or in the buffer, and the counters say how much is where. -/
structure Kept (bytes : List UInt8) (img : Image page) (calls : List Flash.Call) : Prop where
  /-- The pages in flash, and then the front of the buffer. -/
  content : ((written calls).map Prod.snd).flatten ++ img.buffer.take img.buffered = bytes
  /-- Every page is whole, and at its place. -/
  place : ∀ k address p, (written calls)[k]? = some (address, p) →
    address.toNat = k * page ∧ p.length = page
  received : img.received.toNat = bytes.length
  split : bytes.length = page * img.pagesWritten.toNat + img.buffered
  buffered_le : img.buffered ≤ page
  pagesWritten : img.pagesWritten.toNat = (written calls).length
  pageAddress : img.pageAddress.toNat = (written calls).length * page

omit [Flash F] in
/-- A write that failed has put nothing into flash. -/
theorem written_failedWrite (calls : List Flash.Call) (img : Image page) (e : FlashError) :
    written (calls ++ [img.failedWrite e]) = written calls :=
  (Flash.written_append ..).trans (List.append_nil _)

omit [Flash F] in
/-- The pages that are added by a stretch without a failure are put behind those before. -/
theorem Advance.written {new : List (List UInt8)} {flash flash' : Flash.Traced F}
    (h : Advance pages new bytes flash flash' img)
    (hpages : Flash.written flash.calls = placed page 0 pages) :
    Flash.written flash'.calls = placed page 0 (pages ++ new) := by
  rw [h.calls, Flash.written_append, hpages, Flash.written_writes, Flash.placed_append,
    Nat.zero_add]

omit [Flash F] in
theorem take_pad (img : Image page) :
    img.pad.buffer.take img.buffered = img.buffer.take img.buffered := by
  have := img.length_buffer
  have := img.buffered_le
  rw [pad, List.take_append_of_le_length (by rw [List.length_take]; omega), List.take_take,
    Nat.min_self]

omit [Flash F] in
theorem pad_of_full (full : img.buffered = page) : img.pad = img := by
  have htake : img.buffer.take page = img.buffer :=
    List.take_of_length_le (Nat.le_of_eq img.length_buffer)
  ext1 <;> simp [pad, full, htake]

/-- Padding goes behind what has been taken in. -/
theorem Holds.pad (h : img.Holds pages bytes) : img.pad.Holds pages bytes :=
  ⟨(congrArg _ img.take_pad).trans h.flatten, h.length_page, h.received, h.pageAddress,
    h.pagesWritten⟩

/-- Throughout a run the image holds what has been counted, and its pages are in flash. -/
theorem Intake.holds (pos : 0 < page) {flash₀ : F} {flash : Flash.Traced F}
    (h : Intake flash₀ bytes img flash) :
    ∃ pages, img.Holds pages bytes ∧ written flash.calls = placed page 0 pages := by
  induction h with
  | start img len => exact ⟨[], .start img len, rfl⟩
  | @packet bytes img flash data _ ih =>
      obtain ⟨pages, holds, hpages⟩ := ih
      rcases absorb_cases pos data holds flash with
        ⟨new, img', flash', habs, htaken, _, adv⟩ | ⟨e, new, img', _, flash', habs, _, _, adv, hc⟩
      · rw [habs, htaken]
        exact ⟨pages ++ new, adv.holds, adv.written hpages⟩
      · rw [habs, hc, written_failedWrite]
        exact ⟨pages ++ new, adv.holds, adv.written hpages⟩
  | @unfinished bytes img flash e _ _ _ hfin ih =>
      obtain ⟨pages, holds, hpages⟩ := ih
      rcases finish_cases pos holds flash with ⟨_, _, _, hok, _⟩ | ⟨e, flash', herr, hc⟩
      · rw [hok] at hfin
        cases hfin
      · rw [herr] at hfin
        cases hfin
        refine ⟨pages, holds.pad, ?_⟩
        rw [hc, written_failedWrite, hpages]

/-- As long as the counters do not wrap, they say what the image holds. -/
theorem Holds.kept (pos : 0 < page) (h : img.Holds pages bytes) {calls : List Flash.Call}
    (hpages : written calls = placed page 0 pages) (fits : bytes.length + page < UInt32.size) :
    Kept bytes img calls := by
  have hlen := h.length_bytes
  have hmul : pages.length ≤ pages.length * page := Nat.le_mul_of_pos_right _ pos
  have hcount : img.pagesWritten.toNat = pages.length := by
    rw [h.pagesWritten, UInt32.toNat_ofNat_of_lt' (by omega)]
  constructor
  · rw [hpages, Flash.map_snd_placed, h.flatten]
  · intro k address p hk
    rw [hpages, placed, List.getElem?_mapIdx, Nat.zero_add, Option.map_eq_some_iff] at hk
    obtain ⟨q, hq, heq⟩ := hk
    obtain ⟨rfl, rfl⟩ := Prod.mk.inj heq
    obtain ⟨hlt, hget⟩ := List.getElem?_eq_some_iff.mp hq
    have hle : k * page ≤ pages.length * page := Nat.mul_le_mul_right page (Nat.le_of_lt hlt)
    exact ⟨UInt32.toNat_ofNat_of_lt' (by omega), h.length_page q (hget ▸ List.getElem_mem hlt)⟩
  · rw [h.received, UInt32.toNat_ofNat_of_lt' (by omega)]
  · rw [hcount, hlen, Nat.mul_comm]
  · exact img.buffered_le
  · rw [hcount, hpages, Flash.length_placed]
  · rw [hpages, Flash.length_placed, h.pageAddress, UInt32.toNat_ofNat_of_lt' (by omega)]

/-- Once it has been finished, the pages of an image are in flash. -/
theorem Holds.written_finish (pos : 0 < page) (h : img.Holds pages bytes) {img' : Image page}
    {flash flash' : Flash.Traced F} (hpages : written flash.calls = placed page 0 pages)
    (hfinish : img.finish flash = (.ok (), img', flash')) :
    written flash'.calls = placed page 0 (imagePages page bytes) := by
  rcases finish_cases pos h flash with ⟨last, _, _, hok, _, hlast, hc⟩ | ⟨_, _, herr, _⟩
  · rw [hok] at hfinish
    cases hfinish
    rw [hc, Flash.written_append, hpages, Flash.written_writes, ← hlast, Flash.placed_append,
      Nat.zero_add]
  · rw [herr] at hfinish
    cases hfinish

/-- The pages of an image are its bytes, and padding that is short of a page. -/
theorem Holds.flatten_imagePages (pos : 0 < page) (h : img.Holds pages bytes) :
    ∃ r < page, (imagePages page bytes).flatten = bytes ++ .replicate r erased := by
  rcases Nat.eq_zero_or_pos img.buffered with none | some
  · refine ⟨0, pos, ?_⟩
    rw [h.imagePages_of_empty pos none, List.replicate_zero, List.append_nil, ← h.flatten, none,
      List.take_zero, List.append_nil]
  · refine ⟨page - img.buffered, by omega, ?_⟩
    rw [h.imagePages_of_partial some, List.flatten_append, List.flatten_singleton, Image.pad,
      ← h.flatten, List.append_assoc]

/-- Writing the page buffer is one call, whatever comes of it. -/
theorem calls_writePage (img : Image page) (flash : Flash.Traced F) :
    ∃ answer, (img.writePage flash).2.2.calls =
      flash.calls ++ [.program img.pageAddress img.buffer answer] := by
  rcases img.writePage_cases flash with ⟨flash', hw, hc⟩ | ⟨e, flash', hw, hc⟩
  · rw [hw]
    exact ⟨_, hc⟩
  · rw [hw]
    exact ⟨_, hc⟩

/-- A full page that waits is the first thing that the next byte writes. -/
theorem Holds.retries (pos : 0 < page) (h : img.Holds pages bytes) (full : img.buffered = page)
    {data : List UInt8} (ne : data ≠ []) (flash : Flash.Traced F) :
    ∃ answer later, (img.absorb flash data).2.2.calls =
      flash.calls ++ .program img.pageAddress img.buffer answer :: later := by
  rw [absorb_of_full pos full ne]
  rcases img.writePage_cases flash with ⟨flash', hw, hc⟩ | ⟨e, flash', hw, hc⟩
  · rw [hw]
    rcases absorb_cases pos data (h.nextPage full) flash' with
      ⟨new, _, _, habs, _, _, adv⟩ | ⟨e, new, img', _, _, habs, _, _, adv, hlast⟩
    · refine ⟨.ok (), writes page (pages ++ [img.buffer]).length new, ?_⟩
      simp only [habs]
      rw [adv.calls, hc, List.append_assoc, List.singleton_append]
    · refine ⟨.ok (), writes page (pages ++ [img.buffer]).length new ++ [img'.failedWrite e], ?_⟩
      simp only [habs]
      rw [hlast, adv.calls, hc, List.append_assoc, List.append_assoc, List.singleton_append]
  · rw [hw]
    exact ⟨.error e, [], hc⟩

/-- The accumulator loses nothing and writes nothing twice, whatever packets come and whichever
writes fail.  A run keeps every byte that it counts, in order: it is in a page of flash, whole and
at its place, or waits in the buffer.  A packet always comes to an end, in as many turns of the loop
over its chunks as the buffer and the packet take pages.  Then either it has been counted in whole,
and no full page waits, or the write of the page that it filled last has failed, and it has been
counted up to the end of that page; the page is then the first thing that the next byte, or an
attempt to finish, writes.  Once an attempt to finish succeeds, the pages in flash are those of the
bytes counted, the last one padded. -/
theorem accumulates (pos : 0 < page) {flash₀ : F} {flash : Flash.Traced F}
    (h : Intake flash₀ bytes img flash) (fits : bytes.length + page < UInt32.size) :
    Kept bytes img flash.calls ∧
    (∀ data,
      (∀ n, img.buffered + data.length ≤ n * page →
        img.loop n flash data = some (img.absorb flash data)) ∧
      ∃ new, match img.absorb flash data with
        | (.ok (), img', flash') =>
            img.taken flash data = data ∧ (data ≠ [] → img'.buffered < page) ∧
            flash'.calls = flash.calls ++ writes page (written flash.calls).length new
        | (.error e, img', flash') =>
            img.taken flash data <+: data ∧ img'.buffered = page ∧
            (bytes ++ img.taken flash data).length = ((written flash'.calls).length + 1) * page ∧
            flash'.calls = flash.calls ++ writes page (written flash.calls).length new ++
              [img'.failedWrite e]) ∧
    (img.buffered = page →
      (∀ data ≠ [], ∃ answer later, (img.absorb flash data).2.2.calls =
        flash.calls ++ .program img.pageAddress img.buffer answer :: later) ∧
      ∃ answer, (img.finish flash).2.2.calls =
        flash.calls ++ [.program img.pageAddress img.buffer answer]) ∧
    ∀ img' flash', img.finish flash = (.ok (), img', flash') →
      written flash'.calls = placed page 0 (imagePages page bytes) ∧
      (∀ k < (imagePages page bytes).length, (UInt32.ofNat (k * page)).toNat = k * page) ∧
      ∃ r < page, ((written flash'.calls).map Prod.snd).flatten = bytes ++ .replicate r erased := by
  obtain ⟨pages, holds, hpages⟩ := h.holds pos
  refine ⟨holds.kept pos hpages fits, fun data ↦ ⟨?_, ?_⟩, fun full ↦ ⟨?_, ?_⟩, ?_⟩
  · exact fun n ↦ loop_eq_absorb pos n img flash data
  · have hcount : (written flash.calls).length = pages.length := by
      rw [hpages, Flash.length_placed]
    rw [hcount]
    rcases absorb_cases pos data holds flash with
      ⟨new, img', flash', habs, htaken, hroom, adv⟩ |
      ⟨e, new, img', flash', flash'', habs, htaken, full, adv, hc⟩
    · rw [habs]
      exact ⟨new, htaken, fun ne ↦ hroom (.inl ne), adv.calls⟩
    · rw [habs]
      refine ⟨new, htaken, full, ?_, by rw [hc, adv.calls]⟩
      rw [hc, written_failedWrite, adv.written hpages, Flash.length_placed,
        adv.holds.length_bytes, full, Nat.succ_mul]
  · exact fun data ne ↦ holds.retries pos full ne flash
  · rw [finish, if_neg (by omega), pad_of_full full]
    exact img.calls_writePage flash
  · intro img' flash' hfin
    have hall := holds.written_finish pos hpages hfin
    refine ⟨hall, fun k hk ↦ page_address_lt pos (by omega) hk, ?_⟩
    rw [hall, Flash.map_snd_placed]
    exact holds.flatten_imagePages pos

/-- Over pages of two bytes, the second page fails at first, and so does an attempt to finish: the
byte behind the failed page is not counted, the padding is not kept, and in the end four pages hold
the seven bytes that were. -/
theorem accumulates_glitches :
    ∃ (img img' : Image 2) (flash flash' : Flash.Traced Sim.Flash),
      Intake { capacity := 16, glitches := [2, 4] } [1, 2, 3, 4, 6, 7, 8] img flash ∧
      img.finish flash = (.ok (), img', flash') ∧
      written flash'.calls = [(0, [1, 2]), (2, [3, 4]), (4, [6, 7]), (6, [8, erased])] := by
  have start : Intake ({ capacity := 16, glitches := [2, 4] } : Sim.Flash) []
      ((Image.fresh 2 0).start 8) (.fresh _) := .start _ _
  have run := (((start.packet [1, 2, 3, 4, 5]).packet [6]).unfinished rfl).packet [7] |>.packet [8]
  refine ⟨_, _, _, _, run, rfl, ?_⟩
  exact ((accumulates (by decide) run (by decide)).2.2.2 _ _ rfl).1

end Image

end RadioBoot
