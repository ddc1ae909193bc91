import Whdr.Ingest.Http
import Whdr.Lib.Runs
import Whdr.Server.DispatchWindow
import Whdr.Server.Lifecycle

/-! Webhooks on their way through the daemon and its extensions: the ingest handler of every
request (ingest.rs, `dispatch` of `AppState` and `ExtHandle`, daemon.rs), the writer and the
reader task of every generation of an extension, and the child at the other ends of its pipes.
A step is what runs between two points where another thread or process can come in. -/
namespace Whdr.Ingest

open Whdr.Configuration (Config)
open Lifecycle (ExtHandle)
open Ndjson (decodeLine)
open Wire (toJson uuidSize u16Size)

/-- A line in a pipe. -/
abbrev Line := List Char

/-! ## Children -/

/-- A dispatch handler under `run_extension`. The status of a reply is a `u16`. -/
structure Kit where
  handle : SrvMsg → Ext.DispatchResult
  statusFits : ∀ msg reply events, handle msg = .ok (reply, events) → reply.status < u16Size

/-- What runs in a child: a handler of the kit, or anything at all. -/
inductive Program
  | kit (child : Kit)
  | free

/-- A child of the kit writes what its loop makes of the lines it was sent. -/
def Program.prints (read : Line → Option Json) (program : Program) (stdin stdout : List Line)
    (line : Line) : Bool :=
  match program with
  | .kit child => (stdout ++ [line]).isPrefixOf
      ((Ext.serve read child.handle stdin).1.map fun msg => (toJson msg).render)
  | .free => true

/-! ## The daemon -/

structure ExtResult where
  http : HttpReply
  events : List Event
  deriving DecidableEq

/-- The tables that `dispatch` reads. A handle is named by its generation. -/
structure Tables where
  routes : OrdMap String String
  extensions : OrdMap String Uuid
  unavailableRoutes : List String
  failedExtensions : List String
  deriving DecidableEq

/-- What a handle shares with its tasks, and the pipes of its child with all lines ever written
to them. `reader`: the reader took the sender of this request and has not sent the result. -/
structure Link where
  handle : ExtHandle
  window : DispatchWindow
  capacity : Nat
  queue : List SrvMsg
  stdin : List Line
  stdout : List Line
  linesRead : Nat
  reading : Bool
  reader : Option (Nat × ExtResult)
  protocolErrors : Nat
  namespaceViolations : Nat

/-- Where the handler of a request is. `handled`: it holds the handle of this generation, and
`cloned`: the configuration as it was then, too.
`dropped`: the client went away and the future was dropped. -/
inductive Stage
  | arrived
  | keyed (routeKey : String)
  | routed (extId : String)
  | handled (generation : Uuid)
  | cloned (generation : Uuid) (config : Config)
  | sending (msg : SrvMsg)
  | waiting
  | timedOut
  | fanning (http : HttpReply)
  | answered (response : Response)
  | dropped

/-- The reservation is held, and with it the receiver of the oneshot. -/
def Stage.reserved : Stage → Bool
  | .sending _ | .waiting | .timedOut => true
  | _ => false

/-- `ticket`: the generation and the id under which the request was reserved; `slot`: what the
oneshot holds. -/
structure Request where
  http : HttpRequest
  stage : Stage
  ticket : Option (Uuid × Uuid)
  slot : Option ExtResult

/-- A batch given to `fanout`, for a request or for an Event line. -/
structure Batch where
  generation : Uuid
  request : Option Nat
  events : List Event
  deriving DecidableEq

/-- `configs` and `tabled` record all configurations and tables that were in force. -/
structure State where
  config : Config
  configs : List Config
  tables : Tables
  tabled : List Tables
  links : OrdMap Uuid Link
  requests : OrdMap Nat Request
  fanned : List Batch

inductive RequestAction
  | ingest
  | findRoute
  | findHandle
  | cloneConfig
  | reserve (reqId : Uuid)
  | send
  | sendFails
  | receive
  | timeout
  | removePending
  | dead
  | respond
  | cancel

/-- `shutdown`: the supervisor sends a Shutdown. -/
inductive LinkAction
  | write
  | shutdown
  | print (line : Line)
  | readLine
  | sendResult
  | clear

/-- `setTables`: any registration, unroute or failure; the tables may change in any way. -/
inductive Action
  | arrive (n : Nat) (request : HttpRequest)
  | request (n : Nat) (a : RequestAction)
  | link (generation : Uuid) (a : LinkAction)
  | start (handle : ExtHandle)
  | setTables (tables : Tables)
  | reload (config : Config)

/-- What the daemon is built with, and the programs of its children. -/
structure Setup where
  http : HttpLibrary
  b64Encode : List UInt8 → String
  read : Line → Option Json
  programs : Uuid → Program

variable (setup : Setup)

namespace State

def put (s : State) (n : Nat) (q : Request) : State :=
  { s with requests := s.requests.insert n q }

def putLink (s : State) (g : Uuid) (l : Link) : State := { s with links := s.links.insert g l }

/-- No reservation has this id. -/
def unused (s : State) (reqId : Uuid) : Bool :=
  s.requests.values.all fun q => q.ticket.all fun ticket => ticket.2 != reqId

/-- The route lookup failed. -/
def unroutedError (s : State) (routeKey : String) : DispatchError :=
  if s.config.extensions.enabled.contains routeKey ||
      s.tables.unavailableRoutes.contains routeKey || s.tables.failedExtensions.contains routeKey
  then .starting else .notFound

end State

def newLink (handle : ExtHandle) (maxInFlight : Nat) : Link :=
  ⟨handle, .new, max maxInFlight 1 * 2, [], [], [], 0, true, none, 0, 0⟩

/-! ## The handler of a request -/

def answer (s : State) (n : Nat) (q : Request) (response : Response) : State :=
  s.put n { q with stage := .answered response, slot := none }

/-- `remove_pending`, and the drop of a reservation. -/
def release (s : State) (q : Request) : State :=
  match q.ticket with
  | none => s
  | some (g, reqId) =>
    match s.links.get? g with
    | none => s
    | some l => s.putLink g { l with window := (l.window.remove reqId).2 }

/-- The sender of the request's oneshot is in the window or with the reader. -/
def senderAlive (s : State) (n : Nat) (q : Request) : Bool :=
  match q.ticket with
  | none => false
  | some (g, reqId) =>
    match s.links.get? g with
    | none => false
    | some l => l.window.pending.get? reqId == some n || l.reader.any fun held => held.1 == n

/-- `reserve`: the id is new. The limit and the secret are those of the clone. -/
def reserve (s : State) (n : Nat) (q : Request) (g : Uuid) (config : Config) (reqId : Uuid) :
    Option State :=
  if !(s.unused reqId && decide (reqId < uuidSize)) then none
  else match s.links.get? g with
  | none => none
  | some l =>
    match l.window.reserveInFlight config.limits.maxInFlight with
    | none => some (answer s n q (errorResponse .busy))
    | some window =>
      let secret := config.secrets.get? l.handle.id
      let msg := .dispatch (dispatchMsg setup.http setup.b64Encode q.http reqId secret)
      some ((s.putLink g { l with window := window.insert reqId n }).put n
        { q with stage := .sending msg, ticket := some (g, reqId) })

/-- The message goes into the channel, once there is room. -/
def send (s : State) (n : Nat) (q : Request) (msg : SrvMsg) : Option State :=
  match q.ticket with
  | none => none
  | some (g, _) =>
    match s.links.get? g with
    | none => none
    | some l =>
      if l.queue.length < l.capacity then
        some ((s.putLink g { l with queue := l.queue ++ [msg] }).put n { q with stage := .waiting })
      else none

/-- The result arrives and is filtered once more; then `fanout`. -/
def receive (s : State) (n : Nat) (q : Request) (result : ExtResult) : Option State :=
  match q.ticket with
  | none => none
  | some (g, _) =>
    match s.links.get? g with
    | none => none
    | some l =>
      let (events, violations) := filterOwnedEvents l.handle.id l.handle.paths l.handle.channels
        l.namespaceViolations result.events
      let s := s.putLink g { l with namespaceViolations := violations }
      let s := { s with fanned := s.fanned ++ [Batch.mk g (some n) events] }
      some (s.put n { q with stage := .fanning result.http, slot := none })

def advance (s : State) (n : Nat) (q : Request) : RequestAction → Option State
  | .ingest =>
    match q.stage with
    | .arrived =>
      if q.http.body.length > s.config.limits.maxBodyBytes then
        some (answer s n q (statusResponse 413))
      else match routeKeyFromPath q.http.path with
      | none => some (answer s n q (statusResponse 404))
      | some routeKey => some (s.put n { q with stage := .keyed routeKey })
    | _ => none
  | .findRoute =>
    match q.stage with
    | .keyed routeKey =>
      match s.tables.routes.get? routeKey with
      | some extId => some (s.put n { q with stage := .routed extId })
      | none => some (answer s n q (errorResponse (s.unroutedError routeKey)))
    | _ => none
  | .findHandle =>
    match q.stage with
    | .routed extId =>
      match s.tables.extensions.get? extId with
      | some g => some (s.put n { q with stage := .handled g })
      | none => some (answer s n q (errorResponse .starting))
    | _ => none
  | .cloneConfig =>
    match q.stage with
    | .handled g => some (s.put n { q with stage := .cloned g s.config })
    | _ => none
  | .reserve reqId =>
    match q.stage with
    | .cloned g config => reserve setup s n q g config reqId
    | _ => none
  | .send =>
    match q.stage with
    | .sending msg => send s n q msg
    | _ => none
  | .sendFails =>
    match q.stage with
    | .sending _ => some (answer (release s q) n q (errorResponse .dead))
    | _ => none
  | .receive =>
    match q.stage, q.slot with
    | .waiting, some result => receive s n q result
    | _, _ => none
  | .timeout =>
    match q.stage with
    | .waiting =>
      if q.slot.isNone && senderAlive s n q then some (s.put n { q with stage := .timedOut })
      else none
    | _ => none
  | .removePending =>
    match q.stage with
    | .timedOut => some (answer (release s q) n q (errorResponse .timeout))
    | _ => none
  | .dead =>
    match q.stage with
    | .waiting =>
      if q.slot.isNone && !senderAlive s n q then some (answer s n q (errorResponse .dead)) else none
    | _ => none
  | .respond =>
    match q.stage with
    | .fanning http => some (answer s n q (httpReplyToResponse setup.http http))
    | _ => none
  | .cancel =>
    match q.stage with
    | .answered _ | .timedOut | .dropped => none
    | .sending _ | .waiting => some ((release s q).put n { q with stage := .dropped, slot := none })
    | _ => some (s.put n { q with stage := .dropped, slot := none })

/-! ## The tasks of a generation -/

/-- One line of the reader, with the batch of an Event line. A line read when the generation
has left the table ends the task, as do too many protocol errors. -/
def readLine (s : State) (g : Uuid) (l : Link) (line : Line) : Link × Option Batch :=
  let l := { l with linesRead := l.linesRead + 1 }
  let filter := filterOwnedEvents l.handle.id l.handle.paths l.handle.channels l.namespaceViolations
  if s.tables.extensions.get? l.handle.id ≠ some g then ({ l with reading := false }, none)
  else match (decodeLine setup.read line : Except _ (Option ExtMsg)) with
  | .ok (some (.result reqId http events)) =>
    match l.window.remove reqId with
    | (some n, window) =>
      let (kept, violations) := filter events
      ({ l with window := window, namespaceViolations := violations,
                reader := some (n, ⟨http, kept⟩) }, none)
    | (none, window) => ({ l with window := window }, none)
  | .ok (some (.event ev)) =>
    let (kept, violations) := filter [ev]
    ({ l with namespaceViolations := violations }, some ⟨g, none, kept⟩)
  | .ok (some (.log _ _)) | .ok (some (.register _ _ _ _ _)) | .ok none => (l, none)
  | .error _ =>
    let count := l.protocolErrors + 1
    ({ l with protocolErrors := count,
              reading := decide (count < max s.config.limits.maxProtocolErrors 1) }, none)

/-- `tx.send`: nothing happens if the receiver is gone. -/
def sendResult (s : State) (g : Uuid) (l : Link) (n : Nat) (result : ExtResult) : State :=
  let s := s.putLink g { l with reader := none }
  match s.requests.get? n with
  | some q => if q.stage.reserved then s.put n { q with slot := some result } else s
  | none => s

def runLink (s : State) (g : Uuid) (l : Link) : LinkAction → Option State
  | .write =>
    match l.queue with
    | [] => none
    | msg :: rest =>
      some (s.putLink g { l with queue := rest, stdin := l.stdin ++ [(toJson msg).render] })
  | .shutdown =>
    if l.queue.length < l.capacity then
      some (s.putLink g { l with queue := l.queue ++ [.shutdown] })
    else none
  | .print line =>
    if (setup.programs g).prints setup.read l.stdin l.stdout line then
      some (s.putLink g { l with stdout := l.stdout ++ [line] })
    else none
  | .readLine =>
    if l.reading && l.reader.isNone then
      match l.stdout[l.linesRead]? with
      | none => none
      | some line =>
        let (l, batch) := readLine setup s g l line
        let s := s.putLink g l
        some { s with fanned := s.fanned ++ batch.toList }
    else none
  | .sendResult =>
    match l.reader with
    | none => none
    | some (n, result) => some (sendResult s g l n result)
  | .clear => some (s.putLink g { l with window := l.window.clear })

def step (s : State) : Action → Option State
  | .arrive n request =>
    if (s.requests.get? n).isSome then none else some (s.put n ⟨request, .arrived, none, none⟩)
  | .request n a => (s.requests.get? n).bind fun q => advance setup s n q a
  | .link g a => (s.links.get? g).bind fun l => runLink setup s g l a
  | .start handle =>
    if (s.links.get? handle.generation).isSome then none
    else some (s.putLink handle.generation (newLink handle s.config.limits.maxInFlight))
  | .setTables tables => some { s with tables := tables, tabled := tables :: s.tabled }
  | .reload config => some { s with config := config, configs := config :: s.configs }

/-- A daemon that has just started. -/
def Starts (s : State) : Prop :=
  s.configs = [s.config] ∧ s.tabled = [s.tables] ∧ s.links = .empty ∧ s.requests = .empty ∧
    s.fanned = []

end Whdr.Ingest
