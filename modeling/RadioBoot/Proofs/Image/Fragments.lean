import RadioBoot.Proofs.Image.Accumulator

/-!
# Packets cut anywhere

It does not matter how the bytes of an image are cut into packets.  What a packet comes to is what
its front comes to and then, unless a write has failed by then, what the rest of it comes to: the
same answer, the same calls on the flash, and the same image down to the bytes that are left over in
the buffer (`cut_anywhere`).  The cut may fall inside of a page, at the end of one, or in front of a
page that is still waiting to be written again.

Taking in bytes one by one, this is an induction on the front.  The loop that moves whole chunks
takes its chunks elsewhere when the packet is cut; it gives the same because it always ends, and
always with what the bytes come to one by one (`yields_iff`).
-/

namespace RadioBoot.Image

variable {page : Nat} {F : Type} [Flash F]

/-- What comes of taking in a packet: whether a write failed, the image and the flash. -/
abbrev Result (page : Nat) (F : Type) : Type := Except FlashError Unit × Image page × F

/-- The loop over the chunks of a packet comes to an end, with this result. -/
def Yields (img : Image page) (flash : F) (data : List UInt8) (x : Result page F) : Prop :=
  ∃ turns, img.loop turns flash data = some x

/-- Take in one more packet, unless a write has failed before. -/
def goOn (x : Result page F) (data : List UInt8) : Result page F :=
  match x with
  | (.error e, img, flash) => (.error e, img, flash)
  | (.ok (), img, flash) => img.absorb flash data

/-- Take in several packets, one after the other. -/
def absorbAll (img : Image page) (flash : F) (packets : List (List UInt8)) : Result page F :=
  packets.foldl goOn (.ok (), img, flash)

/-! ## The loop over chunks -/

/-- However many turns the loop is given, if it ends it ends with what the bytes come to. -/
theorem absorb_of_loop (pos : 0 < page) {x : Result page F} (n : Nat) :
    ∀ {img : Image page} {flash : F} {data : List UInt8},
      img.loop n flash data = some x → img.absorb flash data = x := by
  induction n with
  | zero =>
      intro img flash data h
      cases data with
      | nil => exact Option.some.inj h
      | cons b rest => exact absurd h (by simp [loop])
  | succ n ih =>
      intro img flash data h
      cases data with
      | nil => exact Option.some.inj h
      | cons b rest =>
          rw [absorb_turn pos img (List.cons_ne_nil b rest)]
          rw [loop] at h
          cases hturn : img.turn flash (b :: rest) with
          | mk answer y =>
              rw [hturn] at h
              cases answer with
              | error e => exact Option.some.inj h
              | ok _ => exact ih h

/-- The loop over chunks always ends, and with nothing but what the bytes come to one by one. -/
theorem yields_iff (pos : 0 < page) {img : Image page} {flash : F} {data : List UInt8}
    {x : Result page F} : img.Yields flash data x ↔ img.absorb flash data = x := by
  constructor
  · rintro ⟨turns, h⟩
    exact absorb_of_loop pos turns h
  · rintro rfl
    exact ⟨img.buffered + data.length,
      loop_eq_absorb pos _ img flash data (Nat.le_mul_of_pos_right _ pos)⟩

/-! ## Cuts -/

/-- The front of a packet is taken in first, and then the rest. -/
theorem absorb_append (a b : List UInt8) :
    ∀ (img : Image page) (flash : F), img.absorb flash (a ++ b) = goOn (img.absorb flash a) b := by
  induction a with
  | nil => intro img flash; rfl
  | cons x rest ih =>
      intro img flash
      rw [List.cons_append, absorb, absorb]
      rcases img.writeFull flash with ⟨_ | _, img₁, flash₁⟩
      · rfl
      · dsimp only
        rcases (img₁.push x).writeFull flash₁ with ⟨_ | _, img₂, flash₂⟩
        · rfl
        · exact ih img₂ flash₂

/-- Two packets in a row come to what their bytes come to in one, also after a failure. -/
theorem goOn_goOn (x : Result page F) (a b : List UInt8) :
    goOn (goOn x a) b = goOn x (a ++ b) := by
  rcases x with ⟨_ | _, img, flash⟩
  · rfl
  · exact (absorb_append a b img flash).symm

/-- So do any number of packets. -/
theorem foldl_goOn (packets : List (List UInt8)) :
    ∀ (x : Result page F) (a : List UInt8),
      packets.foldl goOn (goOn x a) = goOn x (a ++ packets.flatten) := by
  induction packets with
  | nil =>
      intro x a
      rw [List.flatten_nil, List.append_nil, List.foldl_nil]
  | cons data rest ih =>
      intro x a
      rw [List.foldl_cons, goOn_goOn, ih, List.flatten_cons, List.append_assoc]

theorem absorbAll_eq (img : Image page) (flash : F) (packets : List (List UInt8)) :
    img.absorbAll flash packets = img.absorb flash packets.flatten :=
  foldl_goOn packets (.ok (), img, flash) []

/-- A packet may be cut anywhere, and so may the bytes of many packets.  Whatever state the image is
in, also with a full page that could not be written, and whatever the flash does, the front of a
packet and then the rest of it give what the whole packet gives: the answer, the flash with the
calls made on it, and every field of the image.  Once a write has failed the rest is left out.  This
is so for the loop over chunks, which always ends, and for the bytes one by one; and any two ways to
cut the same bytes into packets give the same. -/
theorem cut_anywhere (pos : 0 < page) (img : Image page) (flash : Flash.Traced F) :
    (∀ a b x, img.Yields flash (a ++ b) x ↔
      (∃ e img' flash', x = (.error e, img', flash') ∧ img.Yields flash a x) ∨
      ∃ img' flash', img.Yields flash a (.ok (), img', flash') ∧ img'.Yields flash' b x) ∧
    (∀ data, img.Yields flash data (img.absorb flash data)) ∧
    (∀ a b, img.absorb flash (a ++ b) = goOn (img.absorb flash a) b) ∧
    ∀ packets packets' : List (List UInt8), packets.flatten = packets'.flatten →
      img.absorbAll flash packets = img.absorbAll flash packets' := by
  refine ⟨fun a b x ↦ ?_, fun data ↦ (yields_iff pos).mpr rfl,
    fun a b ↦ absorb_append a b img flash, fun packets packets' same ↦ ?_⟩
  · simp only [yields_iff pos, absorb_append]
    rcases img.absorb flash a with ⟨e | _, img', flash'⟩
    · constructor
      · rintro rfl
        exact .inl ⟨e, img', flash', rfl, rfl⟩
      · rintro (⟨_, _, _, _, hx⟩ | ⟨_, _, hx, _⟩)
        · exact hx
        · exact absurd (congrArg Prod.fst hx) (by simp)
    · constructor
      · intro hx
        exact .inr ⟨img', flash', rfl, hx⟩
      · rintro (⟨_, _, _, rfl, hx⟩ | ⟨_, _, hx, hrest⟩)
        · exact absurd (congrArg Prod.fst hx) (by simp)
        · cases hx
          exact hrest
  · rw [absorbAll_eq, absorbAll_eq, same]

/-- Over pages of two bytes, the first page could not be written and still waits.  Three more bytes,
cut behind the first, write that page again and then the next one. -/
theorem cut_anywhere_pending :
    ∃ (img img' : Image 2) (flash flash' : Flash.Traced Sim.Flash),
      img.buffered = 2 ∧ img.absorb flash [3, 4, 5] = (.ok (), img', flash') ∧
      img.absorbAll flash [[3], [4, 5]] = (.ok (), img', flash') ∧
      Flash.written flash'.calls = [(0, [1, 2]), (2, [3, 4])] := by
  let failed := ((Image.fresh 2 0).start 8).absorb
    (Flash.Traced.fresh ({ capacity := 16, glitches := [0] } : Sim.Flash)) [1, 2]
  have cut := (cut_anywhere (by decide) failed.2.1 failed.2.2).2.2.2 [[3, 4, 5]] [[3], [4, 5]] rfl
  exact ⟨failed.2.1, _, failed.2.2, _, rfl, rfl, cut.symm, rfl⟩

end RadioBoot.Image
