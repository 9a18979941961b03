import RadioBoot.Proofs.Image.Pages
import RadioBoot.Proofs.Update.Shutdown

/-!
# How an update gets on

An update goes from phase to phase and never back.  `Phase.Next` has all the ways on, the one to the
last phase among them, on which the link is taken down; and each of them leads further
(`Phase.Next.rank_lt`), so that no phase is met twice on the way (`Phase.Path.nodup`).  A write
leaves the update where it is or takes it to a next phase, and the length of an image, once it has
been announced, stays (`Updater.getsOn_write`). -/

namespace RadioBoot

namespace Phase

/-! ## The ways on -/

/-- From a phase to the next. -/
inductive Next : Phase → Phase → Prop
  | announced : Next .idle .ready
  | initBegun : Next .ready .receivingInit
  | /-- The init packet may be left out. -/
    dataBegun {p : Phase} : p = .ready ∨ p = .receivingInit → Next p .receivingData
  | validated (verdict : Verdict) : Next .receivingData (.validated verdict)
  | failed : Next .receivingData .failed
  | /-- A reset ends an update wherever it is. -/
    ended {p : Phase} : p.isTerminal = false → Next p .terminated

/-- How far a phase is on the way. -/
def rank : Phase → Nat
  | .idle => 0
  | .ready => 1
  | .receivingInit => 2
  | .receivingData => 3
  | .validated _ | .failed | .awaitingReset => 4
  | .terminated => 5

theorem rank_le (p : Phase) : p.rank ≤ 5 := by cases p <;> simp [rank]

variable {p q : Phase} {changes : List (Phase × Phase)}

/-- Every way on leads further. -/
theorem Next.rank_lt (h : Next p q) : p.rank < q.rank := by
  cases h with
  | announced | initBegun | validated | failed => simp [rank]
  | dataBegun early => rcases early with rfl | rfl <;> simp [rank]
  | ended live => cases p <;> simp_all [rank, isTerminal]

theorem Next.ne_idle (h : Next p q) : q ≠ .idle := by
  rintro rfl
  exact absurd h.rank_lt (Nat.not_lt_zero _)

/-- `Path p changes q`: the changes lead from `p` to `q`, each of them to a next phase, and each
from where the one before it has led. -/
inductive Path (p : Phase) : List (Phase × Phase) → Phase → Prop
  | start : Path p [] p
  | next {changes : List (Phase × Phase)} {q r : Phase} :
      Path p changes q → Next q r → Path p (changes ++ [(q, r)]) r

/-- The phases on the way are not further than where it leads. -/
theorem Path.rank_le (h : Path p changes q) : ∀ x ∈ p :: changes.map Prod.snd, x.rank ≤ q.rank := by
  induction h with
  | start => simp
  | next _ on ih =>
      intro x hx
      simp only [List.map_append, List.map_singleton, ← List.cons_append, List.mem_append,
        List.mem_singleton] at hx
      rcases hx with hx | rfl
      · exact Nat.le_of_lt (Nat.lt_of_le_of_lt (ih x hx) on.rank_lt)
      · exact Nat.le_refl _

/-- No phase is met twice. -/
theorem Path.nodup (h : Path p changes q) : (p :: changes.map Prod.snd).Nodup := by
  induction h with
  | start => simp
  | next path on ih =>
      rw [List.map_append, List.map_singleton, ← List.cons_append, List.nodup_append]
      refine ⟨ih, by simp, fun x hx y hy ↦ ?_⟩
      obtain rfl := List.mem_singleton.mp hy
      rintro rfl
      exact Nat.not_lt.mpr (path.rank_le _ hx) on.rank_lt

/-- There are no more changes than there is way. -/
theorem Path.length_le (h : Path p changes q) : p.rank + changes.length ≤ q.rank := by
  induction h with
  | start => exact Nat.le_refl _
  | next _ on ih =>
      have := on.rank_lt
      rw [List.length_append, List.length_singleton]
      omega

end Phase

/-! ## Steps -/

namespace Transfer

open Phase (Next)

variable {page : Nat} {F : Type}

/-- From `t` to `t'` an update is where it was, or it has got on to a next phase; and if an image
had been announced, its length has stayed. -/
structure GetsOn (t t' : Transfer page) : Prop where
  phase : t'.phase = t.phase ∨ Next t.phase t'.phase
  len : t.phase ≠ .idle → t'.image.len = t.image.len

namespace GetsOn

variable {t t' : Transfer page}

theorem refl (t : Transfer page) : GetsOn t t := ⟨.inl rfl, fun _ ↦ rfl⟩

/-- An image that has been announced is not forgotten. -/
theorem ne_idle (h : GetsOn t t') (begun : t.phase ≠ .idle) : t'.phase ≠ .idle := by
  rcases h.phase with same | on
  · rwa [same]
  · exact on.ne_idle

/-- Arriving in a phase is getting on if that is the same or a next one. -/
theorem arrive {next : Phase} (h : next = t.phase ∨ Next t.phase next)
    (len : t.phase ≠ .idle → t'.image.len = t.image.len) (flash : F) (es : List Effect) :
    GetsOn t (t'.arrive next flash es).transfer := by
  constructor
  · rwa [phase_arrive]
  · intro begun
    have hnext : next ≠ .idle := by
      rcases h with rfl | on
      · exact begun
      · exact on.ne_idle
    rw [image_arrive hnext]
    exact len begun

end GetsOn

variable [Flash F] {t t' : Transfer page}

theorem getsOn_complete (h : t.phase = .receivingData) (len : t'.image.len = t.image.len)
    (flash : F) (es : List Effect) : GetsOn t (t'.complete flash es).transfer := by
  have hfinish := congrArg Prod.fst (t'.image.terms_finish flash)
  rw [complete]
  split
  · generalize t'.image.finish flash = x at hfinish
    obtain ⟨_ | _, image, flash'⟩ := x
    · exact .arrive (.inr (h ▸ .failed)) (fun _ ↦ hfinish.trans len) _ _
    · exact .arrive (.inl h.symm) (fun _ ↦ hfinish.trans len) _ _
  · exact .arrive (.inl h.symm) (fun _ ↦ len) _ _

theorem getsOn_dataPacket (h : t.phase = .receivingData) (flash : F) (data : List UInt8) :
    GetsOn t (t.dataPacket flash data).transfer := by
  rw [dataPacket]
  split
  · exact .arrive (.inr (h ▸ .failed)) (fun _ ↦ rfl) _ _
  · have habsorb := congrArg Prod.fst
      (t.image.terms_absorb (data.take (min data.length t.image.remaining.toNat)) flash)
    dsimp only
    generalize t.image.absorb flash (data.take (min data.length t.image.remaining.toNat)) = x
      at habsorb
    obtain ⟨_ | _, image, flash'⟩ := x
    · exact .arrive (.inr (h ▸ .failed)) (fun _ ↦ habsorb) _ _
    · exact getsOn_complete h habsorb _ _

theorem getsOn_validate (h : t.phase = .receivingData) (flash : F) :
    GetsOn t (t.validate flash).transfer := by
  have on (verdict : Verdict) (flash' : F) (es : List Effect) :
      GetsOn t (t.arrive (.validated verdict) flash' es).transfer :=
    .arrive (.inr (h ▸ .validated verdict)) (fun _ ↦ rfl) _ _
  rw [validate]
  split
  · split <;> exact on _ _ _
  · exact on _ _ _

theorem getsOn_announceImage (h : t.phase = .idle) (flash : F) (data : List UInt8) :
    GetsOn t (t.announceImage flash data).transfer := by
  have refused (es : List Effect) : GetsOn t (t.arrive .idle flash es).transfer :=
    .arrive (.inl h.symm) (fun _ ↦ rfl) _ _
  unfold announceImage
  split
  · dsimp only
    split
    · exact refused _
    · exact .arrive (.inr (h ▸ .announced)) (fun begun ↦ absurd h begun) _ _
  · exact refused _

/-- A step that a phase allows gets on. -/
theorem getsOn_step {r : Request} {s : Step} (fits : Fits t.phase r s) (flash : F)
    (data : List UInt8) : GetsOn t (t.step flash s data).transfer := by
  have inPlace (stays : s.stays = true) : GetsOn t (t.step flash s data).transfer := by
    obtain ⟨_, same | ⟨_, same⟩⟩ := t.step_of_stays flash stays data
    · rw [same]
      exact .refl t
    · rw [same]
      exact ⟨.inl rfl, fun _ ↦ rfl⟩
  generalize hp : t.phase = p at fits
  cases fits with
  | announceImage => exact getsOn_announceImage hp flash data
  | beginInit => exact .arrive (.inr (hp ▸ .initBegun)) (fun _ ↦ rfl) _ _
  | initPacket => exact .arrive (.inl hp.symm) (fun _ ↦ rfl) _ _
  | beginTransfer _ _ early => exact .arrive (.inr (hp ▸ .dataBegun early)) (fun _ ↦ rfl) _ _
  | dataPacket => exact getsOn_dataPacket hp flash data
  | validate => exact getsOn_validate hp flash
  | lateData _ stays => exact inPlace stays
  | inPlace _ _ _ stays => exact inPlace stays

end Transfer

/-! ## Writes -/

namespace Updater

open Transfer (GetsOn)

variable {page : Nat} {P F R : Type} [Port P] [Flash F] [Restart R]

omit [Flash F] in
/-- The phase while a disconnect is waited for. -/
theorem phase_of_waiting {u v : Updater page P F R} {turns : Nat} (h : u.reset turns = .waiting v) :
    v.phase = .awaitingReset := by
  rw [reset] at h
  dsimp only at h
  split at h
  · obtain rfl := Progress.waiting.inj h
    exact Transfer.phase_moveTo _ _
  · exact absurd h (by simp)

/-- A write that is over gets on.  One that is not over waits for the disconnect, and has left the
image alone. -/
theorem getsOn_write (u : Updater page P F R) (turns : Nat) (pipe : UInt8) (data : List UInt8) :
    match u.write turns pipe data with
    | .done v => GetsOn u.transfer v.transfer
    | .waiting v => u.phase.isTerminal = false ∧ v.phase = .awaitingReset ∧
        v.transfer.image = u.transfer.image := by
  rw [write_eq]
  cases hlead : u.pipes.lead u.phase pipe data with
  | none => exact .refl _
  | some x =>
      obtain ⟨r, way⟩ := x
      have hroute := (UpdatePipes.lead_eq_some.mp hlead).2
      cases way with
      | step s =>
          have hkept := (u.step_sameUpdate s r.data).trans (.flushResponses _)
          dsimp only
          rw [hkept.transfer]
          exact Transfer.getsOn_step (fits_of_route hroute) u.flash r.data
      | reset =>
          have live := live_of_route hroute
          obtain ⟨_, himage, _, _⟩ := u.reset_transfer turns
          dsimp only
          cases hreset : u.reset turns with
          | done v =>
              rw [hreset] at himage
              have hend : v.transfer.phase = .terminated := (restart_of_reset hreset).2
              exact ⟨.inr (hend.symm ▸ .ended live), fun _ ↦ congrArg Image.len himage⟩
          | waiting v =>
              rw [hreset] at himage
              have hwait : v.phase = .awaitingReset := phase_of_waiting hreset
              exact ⟨live, hwait, himage⟩

end Updater

end RadioBoot
