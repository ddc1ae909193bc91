import Whdr.Proto.Wire
import Whdr.Server.Plane
import Whdr.Server.QueueCalls

/-! The task of one subscriber connection (subscriber_ws.rs): its loop over the ping interval,
the queue, the close signal and the client's messages, among the tasks of all others. -/
namespace Whdr

/-- `close_all`: every connection is told. -/
def SubscriberRegistry.closeAll (r : SubscriberRegistry) (reason : ClosingReason) :
    SubscriberRegistry :=
  { r with subscribers := r.subscribers.mapValues fun _ sub =>
      { sub with closeTx := some reason } }

namespace SubscriberSocket

open DeliveryLog (StoredEvent)
open SubscriberWs

/-- What is fixed for a run: the sizes of texts, the build's overflow checks, the reader of
JSON, the name of the token and the queue limits. -/
structure Config where
  valueLen : StoredEvent → Nat
  textLen : SubServerMsg → Nat
  checks : Bool
  read : List Char → Option Json
  name : String
  queueLen : Nat
  queueBytes : Nat

/-- What `stream.next()` returns. -/
inductive Incoming
  | text (text : List Char)
  | ping (payload : List UInt8)
  | pong (payload : List UInt8)
  | binary (payload : List UInt8)
  | close
  | error
  | ended
  deriving DecidableEq

/-- Why the task left its loop. `told` is a closing frame from the queue. -/
inductive Why
  | missedPong
  | sendFailed
  | told
  | signalled
  | refused
  | readFailed
  | clientLeft
  deriving DecidableEq, Repr

/-- Where the task is. After `left` only the removal of its entry remains. -/
inductive Stage
  | welcoming
  | selecting
  | popped (frame : Frame)
  | lagTaken (dropped : Nat) (frame : Frame)
  | writing (frame : Frame)
  | answering (answer : SubServerMsg) (rest : List SubServerMsg)
  | replaying (afterSeq : Nat) (parsed : List Pattern) (stage : Replaying)
  | streaming (frame : SubServerMsg) (rest : List SubServerMsg)
  | left (why : Why)
  | removed
  | panicked
  deriving DecidableEq

/-- The answers still to be pushed, then back to the loop. -/
def Stage.answers : List SubServerMsg → Stage
  | [] => .selecting
  | answer :: rest => .answering answer rest

/-- The frames still to be streamed, then back to the loop. -/
def Stage.streams : List SubServerMsg → Stage
  | [] => .selecting
  | frame :: rest => .streaming frame rest

/-- What was written to the sink, and where it came from. Replays are numbered from 0. -/
inductive Sent
  | welcome (name : String)
  | ping
  | pong (payload : List UInt8)
  | lagged (dropped : Nat)
  | queued (frame : Frame)
  | streamed (replay : Nat) (frame : SubServerMsg)
  | closing (reason : ClosingReason)
  deriving DecidableEq

inductive Beat
  | ping
  | pong
  deriving DecidableEq, Repr

/-- A replay: the table of the log it read, and its frames. -/
structure Replay where
  table : DeliveryLog.Table
  frames : List SubServerMsg
  deriving DecidableEq

/-- From `greeted` on it is history: whether the welcome was written, the commands read, the calls
on the queue, what was popped, the replays, the pings written and pongs read, the signals. -/
structure State where
  plane : Plane
  conn : Nat
  stage : Stage
  awaitingPong : Bool
  sent : List Sent
  greeted : Bool
  asked : List SubClientMsg
  calls : List OutboundQueue.Call
  popped : List Frame
  replays : List Replay
  beats : List Beat
  signals : List ClosingReason
  deriving DecidableEq

/-- `sends`: whether a send in the step succeeds. -/
inductive Action
  | plane (a : PlaneAction)
  | fallback (mint : Nat → Uuid) (tsMs : Nat) (events : List Event)
  | closeNamed (name : String) (reason : ClosingReason)
  | closeAll (reason : ClosingReason)
  | other (id : Nat) (change : Subscriber → Subscriber)
  | welcome (sends : Bool)
  | tick (sends : Bool)
  | pop
  | take
  | send (sends : Bool)
  | closeChanged (sends : Bool)
  | incoming (msg : Incoming) (sends : Bool)
  | answer
  | loadFloor
  | loadHead
  | readRows (reads : Bool)
  | remove

def State.entry (s : State) : Option Subscriber := s.plane.registry.subscribers.get? s.conn

def State.setRegistry (s : State) (r : SubscriberRegistry) : State :=
  { s with plane := { s.plane with registry := r } }

/-- A send whose result is not looked at. -/
def State.put (s : State) (w : Sent) (sends : Bool) : State :=
  if sends then { s with sent := s.sent ++ [w] } else s

/-- A send that ends the loop if it fails. -/
def State.send (s : State) (w : Sent) (next : Stage) (sends : Bool) : State :=
  if sends then { s with sent := s.sent ++ [w], stage := next }
  else { s with stage := .left .sendFailed }

/-- The first half of `handle_subscriber_text`: the change of the registry, and what is to be
pushed or loaded next. Frames of a fan-out may come in between. -/
def handleText (r : SubscriberRegistry) (id : Nat) : SubClientMsg → SubscriberRegistry × Stage
  | .subscribe patterns replay =>
    match r.subscribe id patterns with
    | .error msg => (r, .answers [.error "subscribe" msg])
    | .ok r =>
      match replay with
      | none => (r, .answers [.ok "subscribe"])
      | some replay =>
        match r.delivery with
        | none => (r, .answers
            [.ok "subscribe", .error "replay" "durable delivery is not enabled"])
        | some _ => (r, .replaying replay.afterSeq (requested patterns) .registered)
  | .unsubscribe patterns => (r.unsubscribe id patterns, .answers [.ok "unsubscribe"])
  | .ping => (r, .answers [.pong])

/-- The calls a fan-out's push makes on the queue of this connection. -/
def State.offers (s : State) : PlaneAction → List OutboundQueue.Call
  | .push i =>
    match s.plane.pending[i]?, s.entry with
    | some rows, some sub =>
      (SubscriberRegistry.offeredTo sub rows).map fun row => .pushEvent (.event row)
    | _, _ => []
  | _ => []

/-- The task of this connection does this itself. -/
def PlaneAction.isOwn (conn : Nat) : PlaneAction → Bool
  | .connection op => op.conn == some conn
  | _ => false

/-- What reaches the watch channel of this connection when connections with these names are
told. -/
def State.told (s : State) (named : String → Bool) (reason : ClosingReason) :
    List ClosingReason :=
  match s.entry with
  | some sub => if named sub.name then [reason] else []
  | none => []

variable (cfg : Config)

/-- A message of the client, read in the loop. -/
def receive (s : State) (sends : Bool) : Incoming → State
  | .text text =>
    match (cfg.read text).bind Wire.ofJson with
    | none => { s with stage := .left .refused }
    | some msg =>
      let (r, stage) := handleText s.plane.registry s.conn msg
      { s.setRegistry r with stage := stage, asked := s.asked ++ [msg] }
  | .ping payload => s.put (.pong payload) sends
  | .pong _ => { s with awaitingPong := false, beats := s.beats ++ [.pong] }
  | .binary _ => s
  | .close | .error | .ended => { s with stage := .left .clientLeft }

/-- The steps of the task itself. -/
def own (s : State) : Action → Option State
  | .welcome sends =>
    match s.stage with
    | .welcoming =>
      some { s.put (.welcome cfg.name) sends with stage := .selecting, greeted := sends }
    | _ => none
  | .tick sends =>
    match s.stage with
    | .selecting =>
      if s.awaitingPong then some { s with stage := .left .missedPong }
      else if sends then
        some { s with sent := s.sent ++ [.ping], awaitingPong := true, beats := s.beats ++ [.ping] }
      else some { s with stage := .left .sendFailed }
    | _ => none
  | .pop =>
    match s.stage with
    | .selecting => (s.plane.registry.popFrame s.conn).map fun (frame, r) =>
        { s.setRegistry r with
          stage := .popped frame, calls := s.calls ++ [.pop], popped := s.popped ++ [frame] }
    | _ => none
  | .take =>
    match s.stage, s.entry with
    | .popped frame, some sub =>
      let (lag, queue) := sub.queue.takePendingLag
      let r := s.plane.registry.modify s.conn fun sub => { sub with queue := queue }
      some { s.setRegistry r with stage := match lag with
        | some dropped => .lagTaken dropped frame
        | none => .writing frame }
    | _, _ => none
  | .send sends =>
    match s.stage with
    | .lagTaken dropped frame => some (s.send (.lagged dropped) (.writing frame) sends)
    | .writing frame =>
      some (s.send (.queued frame) (if frame.closing then .left .told else .selecting) sends)
    | .streaming frame rest =>
      some (s.send (.streamed (s.replays.length - 1) frame) (.streams rest) sends)
    | _ => none
  | .closeChanged sends =>
    match s.stage, s.entry with
    -- The sender is in the entry. Until it has sent a reason nothing has changed.
    | .selecting, none => some { s with stage := .left .signalled }
    | .selecting, some sub => sub.closeTx.map fun reason =>
        { s.put (.closing reason) sends with stage := .left .signalled }
    | _, _ => none
  | .incoming msg sends =>
    match s.stage with
    | .selecting => some (receive cfg s sends msg)
    | _ => none
  | .answer =>
    match s.stage with
    | .answering answer rest =>
      some { s.setRegistry (pushControl s.plane.registry s.conn answer) with
        stage := .answers rest, calls := s.calls ++ [.pushControl answer] }
    | _ => none
  | .loadFloor =>
    match s.stage, s.plane.registry.delivery with
    | .replaying after parsed .registered, some shared =>
      some { s with stage := .replaying after parsed (.floorLoaded shared.floor) }
    | _, _ => none
  | .loadHead =>
    match s.stage, s.plane.registry.delivery with
    | .replaying after parsed (.floorLoaded floor), some shared =>
      some { s with stage := .replaying after parsed (.headLoaded floor shared.head) }
    | _, _ => none
  | .readRows reads =>
    match s.stage, s.plane.registry.delivery with
    | .replaying after parsed (.headLoaded floor head), some shared =>
      match replayFrames cfg.checks after parsed floor head shared.db with
      -- A panic ends the task without removing its entry.
      | none => some { s with stage := .panicked }
      | some frames =>
        if reads then
          some { s with stage := .streams frames, replays := s.replays ++ [⟨shared.db, frames⟩] }
        else some { s with stage := .left .readFailed }
    | _, _ => none
  | .remove =>
    match s.stage with
    | .left _ => some { s.setRegistry (s.plane.registry.remove s.conn) with stage := .removed }
    | _ => none
  | _ => none

def step (s : State) : Action → Option State
  | .plane a =>
    if PlaneAction.isOwn s.conn a then none
    else (s.plane.step cfg.valueLen cfg.textLen a).map fun p =>
      { s with plane := p, calls := s.calls ++ s.offers a }
  -- A fan-out whose append failed.
  | .fallback mint tsMs events =>
    if events = [] then none
    else
      let (rows, r) := s.plane.registry.stampInMemory mint tsMs events
      let r := { r with persistErrors := r.persistErrors + 1 }
      some { s with plane := { s.plane with registry := r, pending := s.plane.pending ++ [rows] } }
  | .closeNamed name reason =>
    some { s.setRegistry (s.plane.registry.closeNamed name reason) with
      signals := s.signals ++ s.told (· == name) reason }
  | .closeAll reason =>
    some { s.setRegistry (s.plane.registry.closeAll reason) with
      signals := s.signals ++ s.told (fun _ => true) reason }
  -- Another connection's task pushes an answer to its queue or takes its lag.
  | .other id change =>
    if id = s.conn then none else some (s.setRegistry (s.plane.registry.modify id change))
  | a => own cfg s a

/-- The task has just inserted its entry. -/
def opened (p : Plane) : State :=
  let (id, r) := p.registry.insert ⟨cfg.name, none, .new cfg.queueLen cfg.queueBytes, none⟩
  ⟨{ p with registry := r }, id, .welcoming, false, [], false, [], [], [], [], [], []⟩

def Starts (s : State) : Prop := ∃ p, s = opened cfg p

/-! ## A message that nothing interrupts -/

variable {cfg} {s t : State} {r : SubscriberRegistry} {id : Nat} {msg : SubClientMsg}

def Stage.toAnswer : Stage → List SubServerMsg
  | .answering answer rest => answer :: rest
  | _ => []

/-- The replay that is being prepared. -/
def Stage.asking : Stage → List (Nat × List Pattern)
  | .replaying afterSeq parsed _ => [(afterSeq, parsed)]
  | _ => []

@[simp] theorem toAnswer_answers (answers : List SubServerMsg) :
    (Stage.answers answers).toAnswer = answers := by
  cases answers <;> rfl

@[simp] theorem asking_answers (answers : List SubServerMsg) :
    (Stage.answers answers).asking = [] := by
  cases answers <;> rfl

/-- With its answers pushed at once it is `handleSubscriberText`. -/
theorem handleText_alone (r : SubscriberRegistry) (id : Nat) (msg : SubClientMsg) :
    ((handleText r id msg).2.toAnswer.foldl (fun r answer => pushControl r id answer)
        (handleText r id msg).1, (handleText r id msg).2.asking.head?) =
      handleSubscriberText r id msg := by
  cases msg with
  | subscribe patterns replay =>
    simp only [handleText, handleSubscriberText]
    cases r.subscribe id patterns with
    | error msg => rfl
    | ok r =>
      cases replay with
      | none => rfl
      | some replay =>
        dsimp only
        cases r.delivery with
        | none => rfl
        | some log => rfl
  | unsubscribe patterns => rfl
  | ping => rfl

end SubscriberSocket

end Whdr
