import RadioBoot.Config.Provisioned
import RadioBoot.Config.Record
import RadioBoot.Log

/-!
# The configuration store

A store keeps one configuration, as a record. Only valid configurations are kept; as long as there
is none, the standard one is in force.
-/

namespace RadioBoot

/-- The record that is kept, if there is one. -/
structure ConfigStore where
  record : Option (List UInt8) := none
deriving DecidableEq, Repr

namespace ConfigStore

def loaded : Line := .info "NvsConfigStore: loaded config from store"

def absent : Line := .info "NvsConfigStore: no stored config, using defaults"

def saved : Line := .info "NvsConfigStore: config saved (simulation)"

def imported : Line := .info "NvsConfigStore: imported EEPROM block"

/-- The configuration in force. -/
def load (s : ConfigStore) : Logged (Except ConfigError Config) :=
  match s.record with
  | none => ⟨.ok .standard, [absent]⟩
  | some bytes =>
    match Config.ofRecord? bytes with
    | some c => ⟨.ok c, [loaded]⟩
    | none => .silent (.error .corrupted)

/-- Keep a configuration from now on, if it breaks no rule. -/
def save (s : ConfigStore) (c : Config) : Logged (Except ConfigError Unit × ConfigStore) :=
  match c.validate with
  | .error e => .silent (.error e, s)
  | .ok () => ⟨(.ok (), ⟨some c.toRecord⟩), [saved]⟩

/-- Keep the configuration of a provisioned block from now on. -/
def importBlock (s : ConfigStore) (block : List UInt8) :
    Logged (Except ConfigError Config × ConfigStore) :=
  match Config.ofBlock? block with
  | .error e => .silent (.error e, s)
  | .ok c =>
    let x := s.save c
    match x.value with
    | (.error e, s) => ⟨(.error e, s), x.lines⟩
    | (.ok (), s) => ⟨(.ok c, s), x.lines ++ [imported]⟩

end ConfigStore

end RadioBoot
