import RadioBoot.Proofs.Flash.Trace
import RadioBoot.Update.Transfer

/-!
# Flashes that behave alike

Two regions of flash, which need not be of the same type, behave alike when the same calls always
get the same answers from both.  As usual this is presented by a candidate relation, one that no
call leads out of (`Flash.Bisimulation`).

A step of an update knows the flash by its answers only.  So over flashes that behave alike the same
step is taken, and afterwards they still do (`Transfer.step_agree`); the calls that it makes are the
same as well, because tracing a flash does not tell it apart from one that behaves alike
(`Flash.Bisimulation.traced`).
-/

namespace RadioBoot

variable {page : Nat} {F F' : Type}

namespace Flash

variable [Flash F] [Flash F']

/-- A relation between flashes that get the same answers: no call leads out of it. -/
structure Bisimulation (Rel : F → F' → Prop) : Prop where
  capacity {f : F} {f' : F'} : Rel f f' → capacity f = capacity f'
  program {f : F} {f' : F'} (h : Rel f f') (address : UInt32) (page : List UInt8) :
    (program f address page).1 = (program f' address page).1 ∧
      Rel (program f address page).2 (program f' address page).2
  commit {f : F} {f' : F'} (h : Rel f f') :
    (commit f).1 = (commit f').1 ∧ Rel (commit f).2 (commit f').2

/-- Two flashes that get the same answers, whatever the calls. -/
def Alike (f : F) (f' : F') : Prop := ∃ Rel, Bisimulation Rel ∧ Rel f f'

theorem Alike.refl (f : F) : Alike f f := by
  refine ⟨Eq, ⟨?_, ?_, ?_⟩, rfl⟩
  · rintro f _ rfl
    rfl
  · rintro f _ rfl address page
    exact ⟨rfl, rfl⟩
  · rintro f _ rfl
    exact ⟨rfl, rfl⟩

omit [Flash F] [Flash F'] in
/-- Two calls that got the same answer, taken apart. -/
theorem exists_of_answers {α : Type} {Rel : F → F' → Prop} {x : α × F} {y : α × F'}
    (h : x.1 = y.1 ∧ Rel x.2 y.2) : ∃ a f f', x = (a, f) ∧ y = (a, f') ∧ Rel f f' :=
  ⟨x.1, x.2, y.2, rfl, by rw [h.1], h.2⟩

/-- Flashes that behave alike also have the same calls on record, if they do at first. -/
theorem Bisimulation.traced {Rel : F → F' → Prop} (b : Bisimulation Rel) :
    Bisimulation fun (t : Traced F) (t' : Traced F') ↦
      Rel t.flash t'.flash ∧ t.calls = t'.calls where
  capacity h := b.capacity h.1
  program {t t'} h address page := by
    obtain ⟨answer, flash⟩ := b.program h.1 address page
    refine ⟨answer, flash, ?_⟩
    rw [Traced.calls_program, Traced.calls_program, h.2]
    exact congrArg (fun a ↦ t'.calls ++ [Call.program address page a]) answer
  commit {t t'} h := by
    obtain ⟨answer, flash⟩ := b.commit h.1
    refine ⟨answer, flash, ?_⟩
    rw [Traced.calls_commit, Traced.calls_commit, h.2]
    exact congrArg (fun a ↦ t'.calls ++ [Call.commit a]) answer

end Flash

open Flash (Bisimulation)

/-! ## Images -/

namespace Image

/-- Writing went alike: the same answer, the same image, and flashes that are related. -/
def Agree (Rel : F → F' → Prop) (x : Except FlashError Unit × Image page × F)
    (y : Except FlashError Unit × Image page × F') : Prop :=
  ∃ answer img f f', x = (answer, img, f) ∧ y = (answer, img, f') ∧ Rel f f'

variable {Rel : F → F' → Prop} {f : F} {f' : F'}

theorem Agree.intro (h : Rel f f') (answer : Except FlashError Unit) (img : Image page) :
    Agree Rel (answer, img, f) (answer, img, f') := ⟨answer, img, f, f', rfl, rfl, h⟩

variable [Flash F] [Flash F']

theorem writePage_agree (b : Bisimulation Rel) (h : Rel f f') (img : Image page) :
    Agree Rel (img.writePage f) (img.writePage f') := by
  obtain ⟨a, g, g', hx, hy, h⟩ := Flash.exists_of_answers (b.program h img.pageAddress img.buffer)
  rw [writePage, writePage, hx, hy]
  cases a <;> exact .intro h _ _

theorem writeFull_agree (b : Bisimulation Rel) (h : Rel f f') (img : Image page) :
    Agree Rel (img.writeFull f) (img.writeFull f') := by
  rw [writeFull, writeFull]
  split
  · exact img.writePage_agree b h
  · exact .intro h _ _

theorem finish_agree (b : Bisimulation Rel) (h : Rel f f') (img : Image page) :
    Agree Rel (img.finish f) (img.finish f') := by
  rw [finish, finish]
  split
  · exact .intro h _ _
  · exact img.pad.writePage_agree b h

/-- Byte after byte, the same bytes get in, and the same pages are written. -/
theorem absorb_agree (b : Bisimulation Rel) (data : List UInt8) :
    ∀ {f : F} {f' : F'}, Rel f f' → ∀ img : Image page,
      Agree Rel (img.absorb f data) (img.absorb f' data) := by
  induction data with
  | nil => intro f f' h img; exact .intro h _ _
  | cons byte rest ih =>
      intro f f' h img
      obtain ⟨a, before, g, g', hx, hy, h⟩ := img.writeFull_agree b h
      rw [absorb, absorb, hx, hy]
      cases a with
      | error e => exact .intro h _ _
      | ok =>
          obtain ⟨a, after, g, g', hx, hy, h⟩ := (before.push byte).writeFull_agree b h
          dsimp only
          rw [hx, hy]
          cases a with
          | error e => exact .intro h _ _
          | ok => exact ih h after

end Image

/-! ## Steps -/

/-- Two steps that went alike: the same transfer, the same effects, and flashes that are related. -/
structure Stepped.Agree (Rel : F → F' → Prop) (x : Stepped page F) (y : Stepped page F') :
    Prop where
  transfer : x.transfer = y.transfer
  effects : x.effects = y.effects
  flash : Rel x.flash y.flash

namespace Transfer

open Stepped (Agree)

variable {Rel : F → F' → Prop} {f : F} {f' : F'} (t : Transfer page)

theorem arrive_agree (h : Rel f f') (next : Phase) (es : List Effect) :
    Agree Rel (t.arrive next f es) (t.arrive next f' es) := ⟨rfl, rfl, h⟩

theorem writeFails_agree (h : Rel f f') (es : List Effect) (e : FlashError) :
    Agree Rel (t.writeFails f es e) (t.writeFails f' es e) := t.arrive_agree h _ _

variable [Flash F] [Flash F']

theorem announceImage_agree (b : Bisimulation Rel) (h : Rel f f') (data : List UInt8) :
    Agree Rel (t.announceImage f data) (t.announceImage f' data) := by
  unfold announceImage
  rw [b.capacity h]
  split
  · dsimp only
    split
    · exact t.arrive_agree h _ _
    · exact arrive_agree _ h _ _
  · exact t.arrive_agree h _ _

theorem complete_agree (b : Bisimulation Rel) (h : Rel f f') (es : List Effect) :
    Agree Rel (t.complete f es) (t.complete f' es) := by
  rw [complete, complete]
  split
  · obtain ⟨a, image, g, g', hx, hy, h⟩ := t.image.finish_agree b h
    rw [hx, hy]
    cases a with
    | error e => exact writeFails_agree _ h _ _
    | ok => exact arrive_agree _ h _ _
  · exact t.arrive_agree h _ _

theorem dataPacket_agree (b : Bisimulation Rel) (h : Rel f f') (data : List UInt8) :
    Agree Rel (t.dataPacket f data) (t.dataPacket f' data) := by
  rw [dataPacket, dataPacket]
  split
  · exact t.arrive_agree h _ _
  · dsimp only
    obtain ⟨a, image, g, g', hx, hy, h⟩ := Image.absorb_agree b (data.take _) h t.image
    rw [hx, hy]
    cases a with
    | error e => exact writeFails_agree _ h _ _
    | ok => exact complete_agree _ b h _

theorem validate_agree (b : Bisimulation Rel) (h : Rel f f') :
    Agree Rel (t.validate f) (t.validate f') := by
  rw [validate, validate]
  split
  · obtain ⟨a, g, g', hx, hy, h⟩ := Flash.exists_of_answers (b.commit h)
    rw [hx, hy]
    cases a <;> exact t.arrive_agree h _ _
  · exact t.arrive_agree h _ _

/-- Over flashes that behave alike, the same step is taken. -/
theorem step_agree (b : Bisimulation Rel) (h : Rel f f') (s : Step) (data : List UInt8) :
    Agree Rel (t.step f s data) (t.step f' s data) := by
  cases s with
  | announceImage => exact t.announceImage_agree b h data
  | beginInit | initPacket | beginTransfer => exact t.arrive_agree h _ _
  | dataPacket => exact t.dataPacket_agree b h data
  | validate => exact t.validate_agree b h
  | setReceiptInterval =>
      simp only [step, setReceiptInterval]
      split <;> exact ⟨rfl, rfl, h⟩
  | reportImageSize | refuse => exact ⟨rfl, rfl, h⟩

end Transfer

end RadioBoot
