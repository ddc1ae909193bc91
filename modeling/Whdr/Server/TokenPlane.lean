import Whdr.Server.RegistryOps
import Whdr.Server.TokenStore

/-! Handshakes, token commands and reloads on one server (subscriber_ws.rs,
token_control.rs and `reload_from_path`, daemon.rs). A handshake authenticates in one lock
and registers in another; closing a name looks only at who is registered. -/
namespace Whdr.TokenPlane

open TokenStore
open DeliveryLog (StoredEvent)

/-- Where `reload_from_path` is. `moved` is the disk at the path of the new config, if
that is not the store's own. -/
inductive Reload
  | idle
  | loaded (replacement : Store) (moved : Option Disk)
  | compared (replacement : Store) (moved : Option Disk) (invalidated : List String)
  deriving DecidableEq

/-- `handshakes` are authenticated and not yet registered; `admitted` remembers the record
that let a connection in; `closing` has, for every command and reload past its store
update, the names it still has to close. -/
structure State where
  store : Store
  disk : Disk
  registry : SubscriberRegistry
  handshakes : List (String × TokenRecord)
  admitted : OrdMap Nat (String × TokenRecord)
  reload : Reload
  closing : List (List String)
  deriving DecidableEq

inductive Action
  | authenticate (presented : String)
  | insert (handshake : Nat) (queue : OutboundQueue)
  | abandon (handshake : Nat)
  | command (m : Mutation) (halt : Option Halt)
  | closeNext (task : Nat)
  | editFile (disk : Disk)
  | load (moved : Option (StorePath × Disk))
  | compare
  | replace
  | connection (op : RegistryOp)
  | fanout (call : FanoutCall)

/-- The names `TokenControl` closes after the mutation succeeded. -/
def closes : Mutation → List String
  | .add _ _ => []
  | .rotate name _ | .revoke name => [name]

section
variable (toml : Toml) (hashToken : String → String) (valueLen : StoredEvent → Nat)
  (textLen : SubServerMsg → Nat)

/-- A crash ends the run. A command that returns an error closes nobody. -/
def step (s : State) : Action → Option State
  | .authenticate presented =>
    (s.store.authenticate hashToken presented).bind fun name =>
      (s.store.tokens.get? name).map fun record =>
        { s with handshakes := s.handshakes ++ [(name, record)] }
  | .insert i queue =>
    match s.handshakes[i]? with
    | none => none
    | some (name, record) =>
      let (id, r) := s.registry.insert ⟨name, none, queue, none⟩
      some { s with
        registry := r
        admitted := s.admitted.insert id (name, record)
        handshakes := s.handshakes.eraseIdx i }
  | .abandon i => some { s with handshakes := s.handshakes.eraseIdx i }
  | .command m halt =>
    match s.store.mutate toml hashToken m halt s.disk with
    | (.ok _, store, disk) =>
      some { s with store := store, disk := disk, closing := s.closing ++ [closes m] }
    | (.err _, store, disk) => some { s with store := store, disk := disk }
    | (.crashed, _, _) => none
  | .closeNext i =>
    match s.closing[i]? with
    | some (name :: rest) => some { s with
        registry := s.registry.closeNamed name .revoked
        closing := s.closing.set i rest }
    | _ => none
  | .editFile disk => some { s with disk := disk }
  | .load moved =>
    match s.reload with
    | .idle =>
      let (path, disk) := moved.getD (s.store.path, s.disk)
      match loadOrEmpty toml path disk with
      | .error _ => none
      | .ok replacement => some { s with reload := .loaded replacement (moved.map Prod.snd) }
    | _ => none
  | .compare =>
    match s.reload with
    | .loaded replacement moved => some { s with
        reload := .compared replacement moved (s.store.invalidatedNames replacement) }
    | _ => none
  | .replace =>
    match s.reload with
    | .compared replacement moved invalidated => some { s with
        store := replacement
        disk := moved.getD s.disk
        reload := .idle
        closing := s.closing ++ [invalidated] }
    | _ => none
  | .connection op =>
    if op.conn = none then none else some { s with registry := s.registry.apply op }
  | .fanout call => some { s with registry := (s.registry.fanout valueLen textLen call).2 }

end

end Whdr.TokenPlane
