import Whdr.Server.LogSteps
import Whdr.Server.RegistryOps
import Whdr.Server.SubscriberWs

/-! The subscriber plane with concurrent fan-outs. A fan-out stamps its batch, and
pushes the frames in a later step; any number of batches may be in between. -/
namespace Whdr

open DeliveryLog

/-- `pending` are the batches whose stamping has returned and whose frames are not
pushed yet. -/
structure Plane where
  registry : SubscriberRegistry
  writer : Writer
  pending : List (List StampedEvent)
  deriving DecidableEq

inductive PlaneAction
  | log (a : LogAction)
  | stampInMemory (mint : Nat → Uuid) (tsMs : Nat) (events : List Event)
  | push (i : Nat)
  | connection (op : RegistryOp)

/-- The rows of the append that holds the writer lock. -/
def DeliveryLog.Writer.rows : Writer → List StampedEvent
  | .committed rows | .headStored rows => rows
  | .idle | .pruned _ => []

/-- The last counter store of an append is its return. -/
def DeliveryLog.Writer.returned : Writer → LogAction → List (List StampedEvent)
  | .headStored rows, .raiseFloor => [rows]
  | _, _ => []

namespace Plane

variable (valueLen : StoredEvent → Nat) (textLen : SubServerMsg → Nat)

def step (p : Plane) : PlaneAction → Option Plane
  | .log a =>
    match p.registry.delivery with
    | none => none
    | some shared => (Live.step valueLen ⟨shared, p.writer⟩ a).map fun l =>
        ⟨{ p.registry with delivery := some l.shared }, l.writer, p.pending ++ p.writer.returned a⟩
  | .stampInMemory mint tsMs events =>
    match p.registry.delivery with
    | some _ => none
    | none =>
      if events = [] then none
      else
        let (rows, r) := p.registry.stampInMemory mint tsMs events
        some { p with registry := r, pending := p.pending ++ [rows] }
  | .push i =>
    match p.pending[i]? with
    | none => none
    | some rows => some { p with
        registry := p.registry.deliver textLen rows
        pending := p.pending.eraseIdx i }
  | .connection op => some { p with registry := p.registry.apply op }

/-- The steps of one fan-out whose append succeeds compose to the fan-out. -/
theorem fanout_steps (r : SubscriberRegistry) {shared : Shared} (hd : r.delivery = some shared)
    (mint : Nat → Uuid) (events : List Event) (tsMs : Nat) (nonempty : events ≠ []) :
    Runs.exec (step valueLen textLen) ⟨r, .idle, []⟩
      [.log (.commitRows mint events tsMs), .log .storeHead, .log .raiseFloor, .push 0] =
      some ⟨(r.fanout valueLen textLen ⟨events, mint, tsMs, none, tsMs⟩).2, .idle, []⟩ := by
  simp [Runs.exec, step, Live.step, nonempty, hd, SubscriberRegistry.fanout,
    SubscriberRegistry.stamp, Shared.append, Shared.appendBlocking, Shared.commitRows,
    Writer.returned, SubscriberRegistry.deliver]

end Plane

end Whdr
