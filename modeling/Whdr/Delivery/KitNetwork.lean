import Whdr.Delivery.CursorSound
import Whdr.Lib.SessionSteps
import Whdr.SubKit.Handling
import Whdr.SubKit.KitsAgree

/-! A kit against the server, over any number of its processes: each starts on the cursor
in its store, reads the frames as texts, and may die at any point of handling one. -/
namespace Whdr.KitNetwork

open Network (Config Session OneLifetime PushesInOrder)
open Kits (Text Act Loop Handler Library Delivered Sendable frameText)
open Sessions (Flow)
open SubscribeFrames (Kit)
open SubscriberWs (handleSubscriberText requested)
open DeliveryLog (Opened Shared)

/-- `read` is the server's JSON library and `print` the kit's; the kit's own reader and
transport are in `library`. `cursor` is what an empty store loads. -/
structure Setup where
  net : Config
  kit : Kit
  library : Library
  capacity : Nat
  cursor : Nat
  read : Text → Option Json
  print : Json → Text

/-! ## A process of a kit -/

structure Process where
  Resume : Type
  client : Handler → Sessions.Client Text (Loop Resume)
  start : Int → Loop Resume

def process (lib : Library) (capacity : Nat) : Kit → Process
  | .rust => ⟨ResumeState, Kits.Rust.client lib, fun c => Kits.Rust.start c.toNat capacity⟩
  | .go => ⟨Kits.Resume, Kits.Go.client lib, fun c => Kits.Go.start c capacity⟩
  | .python => ⟨Kits.Resume, Kits.Python.client lib, fun c => Kits.Python.start c capacity⟩
  | .typescript =>
    ⟨Kits.Resume, Kits.TypeScript.client lib, fun c => Kits.TypeScript.start c capacity⟩
  | .ocaml => ⟨Kits.Resume, Kits.OCaml.client lib, fun c => Kits.OCaml.start c capacity⟩

abbrev Setup.process (u : Setup) : Process := KitNetwork.process u.library u.capacity u.kit

/-! ## The states -/

/-- `up` are the frames the kit has sent and the server has not read. -/
structure Link where
  server : Session
  opened : Bool
  up : List Text

/-- `past` is what the earlier processes did, and `loop` the present one, if there is one. -/
structure State (R : Type) where
  plane : Plane
  link : Option Link
  past : List Act
  loop : Option (Loop R)

inductive Action
  | server (a : Network.Action)
  | readUp
  | start
  | connect
  | receive (fails : Bool)
  | die (done : Nat)
  | disconnect

variable {R : Type}

/-- All that was ever done by the kit. -/
def State.history (s : State R) : List Act :=
  s.past ++ match s.loop with
    | some loop => loop.acts
    | none => []

/-- What the store loads: the cursor saved last. -/
def stored (cursor : Nat) (acts : List Act) : Int := (Handling.saves acts).getLastD cursor

/-- The events whose `on_event` returned: the cursor was saved at once. -/
def completed : List Act → List Delivered
  | .call (.onEvent ev) :: .save _ :: rest => ev :: completed rest
  | _ :: rest => completed rest
  | [] => []

/-- What the server has of the connection, whatever the client is. -/
def State.net (s : State R) : Network.State :=
  ⟨s.plane, s.link.map Link.server, ⟨.new 0 0, []⟩, false, []⟩

/-! ## The steps -/

/-- The steps in which no client takes part. -/
def serverSide : Network.Action → Bool
  | .plane _ | .loadFloor | .loadHead | .readRows | .popFrame | .sendFrame | .close _
  | .dropConnection => true
  | .restart | .connect | .subscribe | .receive | .disconnect => false

/-- The server goes on with its side of the connection. -/
def State.serve (s : State R) (n : Network.State) : State R :=
  { s with
    plane := n.plane
    link := match s.link, n.session with
      | some x, some y => some { x with server := y }
      | _, _ => none }

/-- The process ends. -/
def State.exit (s : State R) (acts : List Act) : State R :=
  { s with past := s.past ++ acts, link := none, loop := none }

/-- The subscribe frames among what a kit did. -/
def frames (u : Setup) (acts : List Act) : List Text :=
  acts.filterMap fun
    | .subscribe cursor => some (u.print (u.kit.frame u.net.patterns (some cursor.toNat)))
    | _ => none

/-- A hook called now fails or not. -/
def hooks (fails : Bool) : Handler := fun _ _ => fails

/-- The kit reads the first frame in flight. -/
def receive (u : Setup) (s : State u.process.Resume) (x : Link) (loop : Loop u.process.Resume)
    (msg : SubServerMsg) (rest : List SubServerMsg) (fails : Bool) : State u.process.Resume :=
  let client := u.process.client (hooks fails)
  match client.read (frameText msg) (x.opened, loop) with
  | .next (opened, after) =>
    let up := x.up ++ frames u (after.acts.drop loop.acts.length)
    { s with link := some ⟨{ x.server with wire := rest }, opened, up⟩, loop := some after }
  | .ends (_, after) result =>
    if client.stops result then s.exit after.acts
    else { s with link := none, loop := some after }

/-- What a process did that dies while it reads a frame, `done` of it. -/
def lastActs (u : Setup) (loop : Loop u.process.Resume) (x : Link) (msg : SubServerMsg) (done : Nat) :
    List Act :=
  let flow := (u.process.client (hooks false)).read (frameText msg) (x.opened, loop)
  flow.state.2.acts.take (loop.acts.length + done)

/-- The server reads a frame of the kit; it leaves its loop over one it cannot read. -/
def readUp (u : Setup) (s : State R) (x : Link) (text : Text) (rest : List Text) : State R :=
  let x := { x with up := rest }
  match SubscribeFrames.serverReads u.read text with
  | none =>
    { s with
      plane := { s.plane with registry := s.plane.registry.remove x.server.conn }
      link := some { x with server := ⟨x.server.conn, .ended, x.server.wire⟩ } }
  | some msg =>
    let (r, window) := handleSubscriberText s.plane.registry x.server.conn msg
    let task := match window with
      | some (after, parsed) => .replaying after parsed .registered
      | none => .streaming 0
    { s with
      plane := { s.plane with registry := r }
      link := some { x with server := { x.server with task := task } } }

def step (u : Setup) (s : State u.process.Resume) : Action → Option (State u.process.Resume)
  | .server a => if serverSide a then (Network.step u.net s.net a).map s.serve else none
  | .readUp =>
    match s.link with
    | some x =>
      match x.server.task, x.up with
      | .welcomed, text :: rest => some (readUp u s x text rest)
      | _, _ => none
    | none => none
  | .start =>
    match s.loop with
    | some _ => none
    | none => some { s with loop := some (u.process.start (stored u.cursor s.past)) }
  | .connect =>
    match s.loop, s.link with
    | some _, none => (Network.step u.net s.net .connect).map fun n =>
        { s with plane := n.plane, link := n.session.map (⟨·, false, []⟩) }
    | _, _ => none
  | .receive fails =>
    match s.loop, s.link with
    | some loop, some x =>
      match x.server.wire with
      | msg :: rest => some (receive u s x loop msg rest fails)
      | [] => none
    | _, _ => none
  | .die done =>
    match s.loop, s.link with
    | some loop, some x =>
      match x.server.wire with
      | msg :: _ => some (s.exit (lastActs u loop x msg done))
      | [] => some (s.exit loop.acts)
    | some loop, none => some (s.exit loop.acts)
    | none, _ => none
  | .disconnect => s.link.map fun _ => { s with link := none }

/-! ## What is shown of a run -/

/-- The libraries read what is written, and the first cursor is a number they agree on. -/
structure Setup.Correct (u : Setup) : Prop where
  library : u.library.Correct
  up : ∀ j : Json, j.Fits → u.read (u.print j) = some j
  cursor : u.cursor < 2 ^ 53

/-- A server just started on its log, and no process of the kit. -/
def Starts (u : Setup) (s : State u.process.Resume) : Prop :=
  ∃ shared : Shared, Opened u.net.valueLen shared ∧
    (shared.db.entries.map fun e => e.2.id).Nodup ∧
    s = ⟨⟨.withDelivery shared, .idle, []⟩, none, [], none⟩

/-- One server lifetime without prunes, pushes in order, and frames of numbers below 2^53. -/
def Allowed (u : Setup) (s : State u.process.Resume) : Action → Prop
  | .server a => OneLifetime s.net a ∧ PushesInOrder (requested u.net.patterns) s.net a
  | .receive _ | .die _ => ∀ x ∈ s.link, ∀ msg ∈ x.server.wire.head?, Sendable msg
  | .readUp | .start | .connect | .disconnect => True

/-- Every wanted event up to the stored cursor was handled, and only once; a call that is
made is of an event above all cursors saved before. -/
structure HandledOnce (u : Setup) (s : State u.process.Resume) : Prop where
  complete : ∀ row, s.plane.Committed row → u.cursor < row.seq →
    (row.seq : Int) ≤ stored u.cursor s.history →
    anyMatches (requested u.net.patterns) row.channel = true →
    Kits.Rust.deliveredEvent row ∈ completed s.history
  once : (completed s.history).Pairwise fun a b => a.seq < b.seq
  calls : ∀ before ev after, s.history = before ++ .call (.onEvent ev) :: after →
    stored u.cursor before < ev.seq ∧
      ∃ row, s.plane.Committed row ∧ ev = Kits.Rust.deliveredEvent row

end Whdr.KitNetwork
