import Whdr.Server.Lifecycle
import Whdr.Server.RegistryOps

/-! Requests dispatched to one extension (dispatch_window.rs and `ExtHandle::dispatch`,
daemon.rs). The reader task takes the pending entry of a Result line and sends the result
on the entry's oneshot; the request's own future waits for it, filters and fans out. A
step is what runs between two points where another thread can come in. -/
namespace Whdr.Dispatch

open DeliveryLog (AppendFault StoredEvent Shared Table insertRows)
open Lifecycle (ExtHandle)

/-- Where the future of a request is. `timedOut`: the timeout has fired and
`remove_pending` has not run. -/
inductive Stage
  | sending
  | waiting
  | timedOut
  | appending (fallback : List Event)
  | stamped (rows : List StampedEvent)
  | finished
  deriving DecidableEq, Repr

/-- The future of a request can be dropped where it awaits. -/
def Stage.awaits : Stage → Bool
  | .sending | .waiting | .appending _ | .stamped _ => true
  | .timedOut | .finished => false

/-- The blocking append of a fan-out; it runs on when its future is dropped. -/
inductive Job
  | queued (events : List Event)
  | returned (result : Except AppendFault (List StampedEvent))
  deriving DecidableEq

/-- `pending`: the entry is in the window's map. `slot`: what the oneshot holds. The last
three fields record the events of the Result line whose entry the reader found, and the
batches the request's fan-out committed and offered. -/
structure Request where
  pending : Bool
  slot : Option (List Event)
  stage : Stage
  job : Option Job
  taken : Option (List Event)
  appended : List (List StampedEvent)
  offered : List (List StampedEvent)
  deriving DecidableEq

/-- The batch a blocking thread has not appended yet. -/
def Request.queuedEvents (q : Request) : Option (List Event) :=
  match q.job with
  | some (.queued events) => some events
  | _ => none

def newRequest : Request := ⟨true, none, .sending, none, none, [], []⟩

/-- `reader`: the reader took this request's entry and has not sent the result yet. -/
structure State where
  registry : SubscriberRegistry
  violations : Nat
  reader : Option (Uuid × List Event)
  requests : OrdMap Uuid Request
  deriving DecidableEq

namespace State

/-- The reader holds the sender of this request. -/
def holds (s : State) (r : Uuid) : Bool := s.reader.any fun held => held.1 == r

def put (s : State) (r : Uuid) (q : Request) : State :=
  { s with requests := s.requests.insert r q }

end State

/-- What a request's future does, or its blocking append, or what ends it. -/
inductive RequestAction
  | send
  | sendFails
  | receive (mint : Nat → Uuid) (tsMs : Nat)
  | dead
  | timeout
  | removePending
  | runJob (mint : Nat → Uuid) (tsMs : Nat) (fault : Option AppendFault)
  | joinJob (mint : Nat → Uuid) (tsMs : Nat)
  | push
  | cancel

inductive Action
  | reserve (r : Uuid)
  | request (r : Uuid) (a : RequestAction)
  | readLine (r : Uuid) (events : List Event)
  | sendResult
  | clear
  | connection (op : RegistryOp)
  | otherFanout (call : FanoutCall)

/-- The request whose step it is. -/
def Action.request? : Action → Option Uuid
  | .request r _ => some r
  | _ => none

section
variable (handle : ExtHandle) (valueLen : StoredEvent → Nat) (textLen : SubServerMsg → Nat)

/-- The result arrives: filter once more, then `fanout` up to its first await. -/
def received (s : State) (r : Uuid) (q : Request) (events : List Event) (mint : Nat → Uuid)
    (tsMs : Nat) : State :=
  let (events, violations) :=
    filterOwnedEvents handle.id handle.paths handle.channels s.violations events
  let s := { s with violations := violations }
  if events = [] then s.put r { q with slot := none, stage := .finished }
  else if s.registry.delivery.isSome then
    s.put r { q with slot := none, stage := .appending events, job := some (.queued events) }
  else
    let (rows, registry) := s.registry.stampInMemory mint tsMs events
    { s with registry := registry }.put r { q with slot := none, stage := .stamped rows }

/-- The append of a batch, on its own thread. -/
def appended (s : State) (r : Uuid) (q : Request) (events : List Event) (mint : Nat → Uuid)
    (tsMs : Nat) (fault : Option AppendFault) : Option State :=
  match s.registry.delivery with
  | none => none
  | some log =>
    match log.append valueLen fault mint events tsMs with
    | (.ok rows, log) => some ({ s with registry := { s.registry with delivery := some log } }.put
        r { q with job := some (.returned (.ok rows)), appended := q.appended ++ [rows] })
    | (.error f, log) => some ({ s with registry := { s.registry with delivery := some log } }.put
        r { q with job := some (.returned (.error f)) })

/-- The future goes on with what the append returned. -/
def joined (s : State) (r : Uuid) (q : Request) (fallback : List Event) (mint : Nat → Uuid)
    (tsMs : Nat) : Except AppendFault (List StampedEvent) → State
  | .ok rows => s.put r { q with stage := .stamped rows }
  | .error _ =>
    let registry := { s.registry with persistErrors := s.registry.persistErrors + 1 }
    let (rows, registry) := registry.stampInMemory mint tsMs fallback
    { s with registry := registry }.put r { q with stage := .stamped rows }

/-- A timeout polls the oneshot first, so it fires only while the oneshot is empty and
its sender alive. -/
def advance (s : State) (r : Uuid) (q : Request) : RequestAction → Option State
  | .send => if q.stage = .sending then some (s.put r { q with stage := .waiting }) else none
  | .sendFails =>
    if q.stage = .sending then some (s.put r { q with pending := false, stage := .finished })
    else none
  | .receive mint tsMs =>
    match q.stage, q.slot with
    | .waiting, some events => some (received handle s r q events mint tsMs)
    | _, _ => none
  | .dead =>
    if q.stage = .waiting ∧ q.slot = none ∧ q.pending = false ∧ s.holds r = false then
      some (s.put r { q with stage := .finished })
    else none
  | .timeout =>
    if q.stage = .waiting ∧ q.slot = none ∧ (q.pending = true ∨ s.holds r = true) then
      some (s.put r { q with stage := .timedOut })
    else none
  | .removePending =>
    if q.stage = .timedOut then
      some (s.put r { q with pending := false, slot := none, stage := .finished })
    else none
  | .runJob mint tsMs fault =>
    match q.job with
    | some (.queued events) => appended valueLen s r q events mint tsMs fault
    | _ => none
  | .joinJob mint tsMs =>
    match q.stage, q.job with
    | .appending fallback, some (.returned result) => some (joined s r q fallback mint tsMs result)
    | _, _ => none
  | .push =>
    match q.stage with
    | .stamped rows => some ({ s with registry := s.registry.deliver textLen rows }.put
        r { q with stage := .finished, offered := q.offered ++ [rows] })
    | _ => none
  | .cancel =>
    if q.stage.awaits then
      some (s.put r { q with pending := false, slot := none, stage := .finished })
    else none

/-- The reader takes the entry of a Result line, or finds none and drops the line. An
extension cannot name a request before it was sent. -/
def readLine (s : State) (r : Uuid) (events : List Event) : Option State :=
  if s.reader.isSome then none
  else match s.requests.get? r with
  | none => some s
  | some q =>
    if q.stage = .sending then none
    else if q.pending = false then some s
    else
      let (kept, violations) :=
        filterOwnedEvents handle.id handle.paths handle.channels s.violations events
      some ({ s with violations := violations, reader := some (r, kept) }.put
        r { q with pending := false, taken := some events })

/-- `tx.send`: a future that is gone has dropped the receiver. -/
def sendResult (s : State) : Option State :=
  match s.reader with
  | none => none
  | some (r, events) =>
    match s.requests.get? r with
    | none => none
    | some q =>
      if q.stage = .finished then some { s with reader := none }
      else some ({ s with reader := none }.put r { q with slot := some events })

def step (s : State) : Action → Option State
  | .reserve r => if (s.requests.get? r).isSome then none else some (s.put r newRequest)
  | .request r a => (s.requests.get? r).bind fun q => advance handle valueLen textLen s r q a
  | .readLine r events => readLine handle s r events
  | .sendResult => sendResult s
  | .clear =>
    some { s with requests := s.requests.mapValues fun _ q => { q with pending := false } }
  | .connection op => some { s with registry := s.registry.apply op }
  | .otherFanout call => some { s with registry := (s.registry.fanout valueLen textLen call).2 }

/-! ## The property and its condition -/

/-- The events of a line that the extension may emit. -/
def owned (events : List Event) : List Event :=
  events.filter fun event => handle.owns event.channel

/-- No reservation was made, and the reader waits for a line. -/
def Starts (s : State) : Prop := s.reader = none ∧ s.requests = .empty

/-- The future has ended, and neither the reader nor a blocking thread works for it. -/
def Settled (s : State) (r : Uuid) (q : Request) : Prop :=
  q.stage = .finished ∧ s.holds r = false ∧ q.queuedEvents = none

instance (s : State) (r : Uuid) (q : Request) : Decidable (Settled s r q) :=
  inferInstanceAs (Decidable (_ ∧ _))

def eventOf (row : StampedEvent) : Event := ⟨row.channel, row.payloadB64⟩

/-- The batch `events` was offered exactly once, and the same rows were appended exactly
once if there is a log. -/
def FannedOutOnce (delivery : Bool) (events : List Event) (q : Request) : Prop :=
  if events = [] then q.appended = [] ∧ q.offered = []
  else ∃ rows, rows.map eventOf = events ∧ q.offered = [rows] ∧
    q.appended = if delivery then [rows] else []

def State.table (s : State) : Option Table := s.registry.delivery.map Shared.db

/-- Only a request's own steps add to its record, and such a step does what it adds: the batches
offered are pushed to every queue, as far as its patterns match, and the rows appended are the rows
the log gets. -/
def Records (s : State) (a : Action) (t : State) (r : Uuid) (q' : Request) : Prop :=
  ∃ offered appended : List (List StampedEvent),
    q'.offered = ((s.requests.get? r).getD newRequest).offered ++ offered ∧
    q'.appended = ((s.requests.get? r).getD newRequest).appended ++ appended ∧
    (a.request? = some r →
      (∀ id sub, s.registry.subscribers.get? id = some sub →
        t.registry.subscribers.get? id = some { sub with
          queue := sub.queue.pushEvents textLen
            ((offered.flatMap (SubscriberRegistry.offeredTo sub)).map .event) }) ∧
      t.table = s.table.map fun table => insertRows table appended.flatten) ∧
    (a.request? ≠ some r → offered = [] ∧ appended = [])

/-- The reader has not taken a result with events to emit. -/
def NothingTaken (q : Request) : Prop := ∀ line, q.taken = some line → owned handle line = []

/-- The future is neither dropped nor timed out once its result was taken, no result is
taken after the timeout fired, and no append fails. -/
def Undisturbed (s : State) : Action → Prop
  | .request r .cancel | .request r .timeout =>
    ∀ q ∈ s.requests.get? r, NothingTaken handle q
  | .request r (.runJob _ _ fault) => ∀ q ∈ s.requests.get? r, ∀ events ∈ q.queuedEvents,
      fault.filter (AppendFault.reached events.length) = none
  | .readLine r events => ∀ q ∈ s.requests.get? r, q.stage = .timedOut → q.pending = true →
      owned handle events = []
  | _ => True

instance (q : Request) : Decidable (NothingTaken handle q) :=
  inferInstanceAs (Decidable (∀ line ∈ q.taken, owned handle line = []))

instance (s : State) (a : Action) : Decidable (Undisturbed handle s a) :=
  match a with
  | .request _ .cancel | .request _ .timeout | .request _ (.runJob _ _ _) | .readLine _ _ =>
    inferInstanceAs (Decidable (∀ q ∈ _, _))
  | .request _ .send | .request _ .sendFails | .request _ (.receive _ _) | .request _ .dead
  | .request _ .removePending | .request _ (.joinJob _ _) | .request _ .push
  | .reserve _ | .sendResult | .clear | .connection _ | .otherFanout _ => isTrue trivial

end

end Whdr.Dispatch
