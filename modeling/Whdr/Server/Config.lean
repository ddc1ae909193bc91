import Mathlib.Data.String.Basic
import Whdr.Lib.OrdMap

/-! The part of the daemon's configuration (config.rs) that its ingest reads, with the defaults
of its sections. -/
namespace Whdr.Configuration

structure ExtensionsConfig where
  enabled : List String := []
  deriving DecidableEq, Repr

structure LimitsConfig where
  maxBodyBytes : Nat := 1048576
  maxInFlight : Nat := 64
  maxProtocolErrors : Nat := 3
  deriving DecidableEq, Repr

structure Config where
  extensions : ExtensionsConfig
  limits : LimitsConfig
  secrets : OrdMap String String
  deriving DecidableEq

/-- An empty file. -/
def Config.default : Config := ⟨{}, {}, .empty⟩

end Whdr.Configuration
