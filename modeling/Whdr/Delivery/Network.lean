import Whdr.Server.PlaneSteps
import Whdr.SubKit.Resume

/-! One client of the kit against the server: its sessions, the frames in flight to
it, and the plane with all its fan-outs and other connections. -/
namespace Whdr.Network

open DeliveryLog SubscriberWs

/-- What is fixed for a run: the sizes of texts, the build's overflow checks, the
client's name and patterns, the queue limits. -/
structure Config where
  valueLen : StoredEvent → Nat
  textLen : SubServerMsg → Nat
  checks : Bool
  name : String
  patterns : List String
  queueLen : Nat
  queueBytes : Nat

/-- Where the connection task of the session is. `through` is the head its replay
was cut at, 0 without a replay; before the subscribe the queue is empty, so the task
has nothing to pop. -/
inductive Task
  | welcomed
  | replaying (afterSeq : Nat) (parsed : List Pattern) (stage : Replaying)
  | streaming (through : Nat)
  | holding (through : Nat) (frame : Frame)
  | ended
  deriving DecidableEq

/-- The frame popped and not yet sent. -/
def Task.held : Task → List SubServerMsg
  | .holding _ frame => [frame.msg]
  | _ => []

/-- `wire` are the frames sent and not yet read by the client. -/
structure Session where
  conn : Nat
  task : Task
  wire : List SubServerMsg
  deriving DecidableEq

/-- `received` are the events of all frames the client has read. -/
structure State where
  plane : Plane
  session : Option Session
  client : Client
  stopped : Bool
  received : List StampedEvent
  deriving DecidableEq

inductive Action
  | plane (a : PlaneAction)
  | restart
  | connect
  | subscribe
  | loadFloor
  | loadHead
  | readRows
  | popFrame
  | sendFrame
  | close (reason : ClosingReason)
  | dropConnection
  | receive
  | disconnect

/-- The connection the session's task works on. -/
def Session.live (x : Session) : Option Nat :=
  match x.task with
  | .ended => none
  | _ => some x.conn

def State.setRegistry (s : State) (r : SubscriberRegistry) : State :=
  { s with plane := { s.plane with registry := r } }

def State.setSession (s : State) (x : Session) : State := { s with session := some x }

/-- The task leaves its loop and removes its entry; what is on the wire stays. -/
def State.endTask (s : State) (x : Session) (wire : List SubServerMsg) : State :=
  (s.setRegistry (s.plane.registry.remove x.conn)).setSession ⟨x.conn, .ended, wire⟩

/-- The `lagged` frame, if drops are pending, and the frame popped. -/
def sent (lag : Option Nat) (frame : Frame) : List SubServerMsg :=
  (match lag with
    | some dropped => [.lagged dropped]
    | none => []) ++ [frame.msg]

/-- The client reads the first frame in flight. -/
def receive (s : State) (x : Session) (msg : SubServerMsg) (rest : List SubServerMsg) : State :=
  let (client, after) := s.client.onFrame msg
  let s := { s with client := client, received := s.received ++ eventsOf [msg] }
  match after with
  | .more => s.setSession { x with wire := rest }
  | .reconnect => { s with session := none }
  | .stop => { s with session := none, stopped := true }

variable (cfg : Config)

/-- The steps of the session, with its entry in the registry. -/
def sessionStep (s : State) (x : Session) : Action → Option State
  | .subscribe =>
    match x.task with
    | .welcomed =>
      match handleSubscriberText s.plane.registry x.conn
          (.subscribe cfg.patterns (some ⟨s.client.resume.cursor⟩)) with
      | (r, some (after, parsed)) =>
        some ((s.setRegistry r).setSession { x with task := .replaying after parsed .registered })
      | (r, none) => some ((s.setRegistry r).setSession { x with task := .streaming 0 })
    | _ => none
  | .loadFloor =>
    match x.task, s.plane.registry.delivery with
    | .replaying after parsed .registered, some shared =>
      some (s.setSession { x with task := .replaying after parsed (.floorLoaded shared.floor) })
    | _, _ => none
  | .loadHead =>
    match x.task, s.plane.registry.delivery with
    | .replaying after parsed (.floorLoaded floor), some shared =>
      some (s.setSession { x with task := .replaying after parsed (.headLoaded floor shared.head) })
    | _, _ => none
  | .readRows =>
    match x.task, s.plane.registry.delivery with
    | .replaying after parsed (.headLoaded floor head), some shared =>
      match replayFrames cfg.checks after parsed floor head shared.db with
      | some frames => some (s.setSession ⟨x.conn, .streaming head, x.wire ++ frames⟩)
      -- A panic ends the task without removing its entry.
      | none => some (s.setSession { x with task := .ended })
    | _, _ => none
  | .popFrame =>
    match x.task with
    | .streaming through => (s.plane.registry.popFrame x.conn).map fun (frame, r) =>
        (s.setRegistry r).setSession { x with task := .holding through frame }
    | _ => none
  | .sendFrame =>
    match x.task, s.plane.registry.subscribers.get? x.conn with
    | .holding through frame, some sub =>
      let (lag, queue) := sub.queue.takePendingLag
      let s := s.setRegistry (s.plane.registry.modify x.conn fun sub => { sub with queue := queue })
      let wire := x.wire ++ sent lag frame
      if frame.closing then some (s.endTask x wire)
      else some (s.setSession ⟨x.conn, .streaming through, wire⟩)
    | _, _ => none
  | .close reason =>
    match x.task with
    | .welcomed | .streaming _ => some (s.endTask x (x.wire ++ [.closing reason]))
    | _ => none
  | .dropConnection =>
    match x.task with
    | .ended => none
    | _ => some (s.endTask x x.wire)
  | .receive =>
    match x.wire with
    | [] => none
    | msg :: rest => some (receive s x msg rest)
  | .disconnect => some { s with session := none }
  | _ => none

def step (s : State) : Action → Option State
  | .plane (.connection op) =>
    if op.conn ≠ none ∧ op.conn = s.session.bind Session.live then none
    else (s.plane.step cfg.valueLen cfg.textLen (.connection op)).map fun p => { s with plane := p }
  | .plane a => (s.plane.step cfg.valueLen cfg.textLen a).map fun p => { s with plane := p }
  | .restart =>
    -- Without a log nothing outlives the server process but what is on the wire.
    match s.plane.registry.delivery with
    | some _ => none
    | none => some { s with
        plane := ⟨.new, .idle, []⟩
        session := s.session.map fun x => { x with task := .ended } }
  | .connect =>
    if s.stopped then none
    else match s.session with
      | some _ => none
      | none =>
        let (id, r) := s.plane.registry.insert
          ⟨cfg.name, none, .new cfg.queueLen cfg.queueBytes, none⟩
        some ((s.setRegistry r).setSession ⟨id, .welcomed, [.welcome cfg.name]⟩)
  | a => s.session.bind fun x => sessionStep cfg s x a

end Whdr.Network
