import RadioBoot.Config.Store

/-!
# The configuration store is a register

What is loaded from a store is what was kept last, as it was kept: every field of a configuration
comes back out of its record (`Config.ofRecord?_toRecord`), and only valid configurations are ever
kept.  A save or an import that is refused changes nothing.  So a run of requests, however many of
them fail, leaves the store with the last configuration that it accepted, or with none
(`Journal.run_keeps`), and what a load answers can be read off the requests alone
(`loads_last_accepted`).
-/

namespace RadioBoot

namespace Config

/-- A configuration is refused only for a rule that it breaks. -/
theorem invalid_of_validate {c : Config} {e : ConfigError} (h : c.validate = .error e) :
    ∃ rule, e = .invalid rule := by
  rw [validate] at h
  split at h
  · exact ⟨_, (Except.error.inj h).symm⟩
  · exact absurd h (by simp)

/-- The configuration of a block has been checked. -/
theorem validate_of_ofBlock? {block : List UInt8} {c : Config} (h : ofBlock? block = .ok c) :
    c.validate = .ok () := by
  unfold ofBlock? at h
  split at h
  · exact absurd h (by simp)
  · split at h
    · exact absurd h (by simp)
    · split at h
      · exact absurd h (by simp)
      · split at h
        · exact absurd h (by simp)
        · rename_i valid
          exact Except.ok.inj h ▸ valid

theorem validate_standard : standard.validate = .ok () := rfl

end Config

namespace ConfigStore

/-! ## Requests, one at a time -/

/-- The store that keeps a configuration, or none. -/
def keeping (c? : Option Config) : ConfigStore := ⟨c?.map Config.toRecord⟩

/-- What is kept is loaded, and without it the standard configuration. -/
theorem load_keeping (c? : Option Config) :
    (keeping c?).load.value = .ok (c?.getD .standard) := by
  cases c? with
  | none => rfl
  | some c =>
      have hread := c.ofRecord?_toRecord []
      rw [List.append_nil] at hread
      simp only [load, keeping, Option.map_some, hread]
      rfl

variable (s : ConfigStore)

/-- A valid configuration is kept from then on. -/
theorem save_of_valid {c : Config} (h : c.validate = .ok ()) :
    (s.save c).value = (.ok (), keeping (some c)) := by
  rw [save, h]
  rfl

/-- Any other is refused, and the store stays as it is. -/
theorem save_of_invalid {c : Config} {e : ConfigError} (h : c.validate = .error e) :
    (s.save c).value = (.error e, s) := by
  rw [save, h]
  rfl

/-- The configuration of a block that can be read is kept from then on. -/
theorem importBlock_of_ok {block : List UInt8} {c : Config} (h : Config.ofBlock? block = .ok c) :
    (s.importBlock block).value = (.ok c, keeping (some c)) := by
  have hsave := s.save_of_valid (Config.validate_of_ofBlock? h)
  simp only [importBlock, h]
  generalize s.save c = x at hsave
  obtain ⟨⟨answer, s'⟩, lines⟩ := x
  obtain ⟨rfl, rfl⟩ := Prod.mk.inj hsave
  rfl

/-- A block that cannot be read changes nothing. -/
theorem importBlock_of_error {block : List UInt8} {e : ConfigError}
    (h : Config.ofBlock? block = .error e) : (s.importBlock block).value = (.error e, s) := by
  rw [importBlock, h]
  rfl

/-! ## Runs -/

/-- What can be asked of a store. -/
inductive Request where
  | load
  | save (c : Config)
  | importBlock (block : List UInt8)

/-- A request with its answer. -/
inductive Entry where
  | load (answer : Except ConfigError Config)
  | save (c : Config) (answer : Except ConfigError Unit)
  | importBlock (block : List UInt8) (answer : Except ConfigError Config)

/-- The configuration that was kept at a request. -/
def Entry.accepted? : Entry → Option Config
  | .save c (.ok ()) => some c
  | .importBlock _ (.ok c) => some c
  | _ => none

/-- The configuration that was kept last. -/
def accepted? (entries : List Entry) : Option Config := (entries.filterMap Entry.accepted?).getLast?

/-- The configuration that is in force after these requests: the one that was kept last, or else the
standard one. -/
def inForce (entries : List Entry) : Config := (accepted? entries).getD .standard

/-- A store, and what has been asked of it, oldest first. -/
structure Journal where
  store : ConfigStore
  entries : List Entry

namespace Journal

/-- The journal after one more request. -/
def after (j : Journal) : Request → Journal
  | .load => { j with entries := j.entries ++ [.load j.store.load.value] }
  | .save c =>
    let x := (j.store.save c).value
    ⟨x.2, j.entries ++ [.save c x.1]⟩
  | .importBlock block =>
    let x := (j.store.importBlock block).value
    ⟨x.2, j.entries ++ [.importBlock block x.1]⟩

/-- A new store that is asked all of this, in order. -/
def run (requests : List Request) : Journal := requests.foldl after ⟨{}, []⟩

/-- The store keeps what was accepted last, that is valid, and every load has been answered with
what was in force. -/
structure Keeps (j : Journal) : Prop where
  store : j.store = keeping (accepted? j.entries)
  valid : (inForce j.entries).validate = .ok ()
  loads : ∀ earlier answer later, j.entries = earlier ++ .load answer :: later →
    answer = .ok (inForce earlier) ∧ (inForce earlier).validate = .ok ()

variable {j : Journal}

/-- One more request keeps this, if the store has then kept what the request says, and if a load was
answered with what was in force. -/
theorem Keeps.entry (h : Keeps j) {s : ConfigStore} {e : Entry}
    (hs : s = keeping (e.accepted?.or (accepted? j.entries)))
    (hvalid : ∀ c, e.accepted? = some c → c.validate = .ok ())
    (hload : ∀ answer, e = .load answer → answer = .ok (inForce j.entries)) :
    Keeps ⟨s, j.entries ++ [e]⟩ := by
  have haccepted : accepted? (j.entries ++ [e]) = e.accepted?.or (accepted? j.entries) := by
    rw [accepted?, List.filterMap_append, List.getLast?_append, accepted?]
    cases he : e.accepted? <;> simp [he]
  refine ⟨hs.trans (congrArg keeping haccepted.symm), ?_, fun earlier answer later hsplit ↦ ?_⟩
  · rw [inForce, haccepted]
    cases he : e.accepted? with
    | none => exact h.valid
    | some c => exact hvalid c he
  · -- the load is the new entry, or one of those before
    rcases List.eq_nil_or_concat later with rfl | ⟨later, last, rfl⟩
    · obtain ⟨rfl, hlast⟩ := List.append_inj' hsplit rfl
      exact ⟨hload answer (List.cons.inj hlast).1, h.valid⟩
    · rw [List.concat_eq_append, ← List.cons_append, ← List.append_assoc] at hsplit
      exact h.loads earlier answer later (List.append_inj' hsplit rfl).1

theorem Keeps.after (h : Keeps j) (r : Request) : Keeps (j.after r) := by
  cases r with
  | load =>
      refine h.entry h.store (fun c hc ↦ absurd hc (by simp [Entry.accepted?])) ?_
      rintro _ ⟨⟩
      rw [h.store, load_keeping]
      rfl
  | save c =>
      cases hc : c.validate with
      | ok _ =>
          have hsave := j.store.save_of_valid hc
          refine h.entry ?_ ?_ (by simp)
          · rw [hsave]
            rfl
          · rw [hsave]
            rintro _ ⟨⟩
            exact hc
      | error e =>
          have hsave := j.store.save_of_invalid hc
          refine h.entry ?_ ?_ (by simp)
          · rw [hsave]
            exact h.store
          · rw [hsave]
            exact fun c hc ↦ absurd hc (by simp [Entry.accepted?])
  | importBlock block =>
      cases hblock : Config.ofBlock? block with
      | ok c =>
          have himport := j.store.importBlock_of_ok hblock
          refine h.entry ?_ ?_ (by simp)
          · rw [himport]
            rfl
          · rw [himport]
            rintro _ ⟨⟩
            exact Config.validate_of_ofBlock? hblock
      | error e =>
          have himport := j.store.importBlock_of_error hblock
          refine h.entry ?_ ?_ (by simp)
          · rw [himport]
            exact h.store
          · rw [himport]
            exact fun c hc ↦ absurd hc (by simp [Entry.accepted?])

theorem run_keeps (requests : List Request) : Keeps (run requests) := by
  refine List.foldlRecOn requests _ ⟨rfl, Config.validate_standard, ?_⟩ fun _ h r _ ↦ h.after r
  exact fun earlier answer later hsplit ↦ absurd hsplit (by simp)

end Journal

/-- The store is a register for valid configurations.  Every load of a run is answered with the
configuration that was kept last, every field of it, or with the standard one; and that one is
valid.  What is asked next, after whatever run, is answered in kind: a configuration is kept just
when it is valid, and a block just when it can be read, which the next load answers with its
configuration; what is refused leaves the store as it was.  So a store never finds its record
corrupted. -/
theorem loads_last_accepted (requests : List Request) :
    let j := Journal.run requests
    (∀ earlier answer later, j.entries = earlier ++ .load answer :: later →
      answer = .ok (inForce earlier) ∧ (inForce earlier).validate = .ok ()) ∧
    (j.store.load.value = .ok (inForce j.entries) ∧ (inForce j.entries).validate = .ok ()) ∧
    (∀ c, ((j.store.save c).value.1 = .ok () ↔ c.validate = .ok ()) ∧
      ((j.store.save c).value.1 = .ok () →
        (j.store.save c).value.2.load.value = .ok c) ∧
      ∀ e, (j.store.save c).value.1 = .error e →
        (j.store.save c).value.2 = j.store ∧ ∃ rule, e = .invalid rule) ∧
    ∀ block, (j.store.importBlock block).value.1 = Config.ofBlock? block ∧
      (∀ c, (j.store.importBlock block).value.1 = .ok c →
        (j.store.importBlock block).value.2.load.value = .ok c) ∧
      ∀ e, (j.store.importBlock block).value.1 = .error e →
        (j.store.importBlock block).value.2 = j.store := by
  intro j
  have h : Journal.Keeps j := Journal.run_keeps requests
  refine ⟨h.loads, ⟨?_, h.valid⟩, fun c ↦ ?_, fun block ↦ ?_⟩
  · rw [h.store, load_keeping]
    rfl
  · cases hc : c.validate with
    | ok _ =>
        rw [j.store.save_of_valid hc]
        exact ⟨⟨fun _ ↦ rfl, fun _ ↦ rfl⟩, fun _ ↦ load_keeping (some c), by simp⟩
    | error e =>
        rw [j.store.save_of_invalid hc]
        refine ⟨by simp, by simp, fun e' he ↦ ⟨rfl, ?_⟩⟩
        exact Config.invalid_of_validate (hc.trans he)
  · cases hblock : Config.ofBlock? block with
    | ok c =>
        rw [j.store.importBlock_of_ok hblock]
        refine ⟨rfl, fun c' hc ↦ ?_, by simp⟩
        exact (load_keeping (some c)).trans hc
    | error e =>
        rw [j.store.importBlock_of_error hblock]
        exact ⟨rfl, by simp, fun _ _ ↦ rfl⟩

/-- A configuration whose words take one byte, two and three is loaded as it was saved, also after
another one has been refused. -/
theorem loads_last_accepted_wide :
    let wide : Config := { Config.standard with
      connectTimeout := 127
      advertisingInterval := 0x100
      receiptInterval := 0xFFFF }
    let j := Journal.run [.load, .save wide, .save { wide with creditTotal := 0 }]
    j.store.load.value = .ok wide :=
  (loads_last_accepted _).2.1.1

end ConfigStore

end RadioBoot
