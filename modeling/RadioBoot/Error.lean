import RadioBoot.CodecError
import RadioBoot.Config.Basic
import RadioBoot.Flash
import RadioBoot.Port

/-! # All that can go wrong, by the layer where it does -/

namespace RadioBoot

inductive Error where
  | port (e : PortError)
  | codec (e : CodecError)
  | flash (e : FlashError)
  | config (e : ConfigError)
  /-- The board could not be set up. -/
  | init (reason : String)
deriving DecidableEq, Repr

namespace Error

/-- The error of the layer, without the layer's name. -/
def cause : Error → String
  | .port e => e.message
  | .codec e => e.message
  | .flash e => e.message
  | .config e => e.message
  | .init reason => reason

/-- The name of the layer. -/
def layer : Error → String
  | .port _ => "port"
  | .codec _ => "codec"
  | .flash _ => "flash"
  | .config _ => "config"
  | .init _ => "init"

def message (e : Error) : String := e.layer ++ ": " ++ e.cause

end Error

end RadioBoot
