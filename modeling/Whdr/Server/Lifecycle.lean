import Whdr.Server.ChannelClaims

/-! The extension tables over the lifecycle of the extensions (daemon.rs). A task is
the list of its critical sections still to run, one lock at a time; the sections of
different tasks interleave. -/
namespace Whdr.Lifecycle

/-- The fields the lifecycle reads. `paths` are the id and the aliases. -/
structure ExtHandle where
  candidateId : String
  id : String
  generation : Uuid
  paths : List String
  channels : List String
  deriving DecidableEq, Repr

/-- The reader of this handle lets an event on the channel through. -/
def ExtHandle.owns (handle : ExtHandle) (channel : String) : Prop :=
  validateEmittedChannel channel handle.id handle.paths handle.channels = .ok ()

instance (handle : ExtHandle) (channel : String) : Decidable (handle.owns channel) :=
  inferInstanceAs (Decidable (_ = _))

/-- The register line of a child. -/
structure Registration where
  id : String
  paths : List String
  channels : List String
  deriving DecidableEq, Repr

inductive Phase
  | starting
  | watching
  | draining
  deriving DecidableEq, Repr

/-- `drainStop`: a `DrainStop` waits in the command channel. -/
structure Supervisor where
  id : String
  generation : Uuid
  phase : Phase
  drainStop : Bool
  deriving DecidableEq, Repr

/-- One critical section, or one message sent, of a task. -/
inductive Op
  | dropRoutes (id : String)
  | dropPrefixes (id : String)
  | clearUnavailable (keys : List String)
  | markUnavailable (keys : List String) (reason : String)
  | clearFailed (keys : List String)
  | markFailed (key reason : String)
  | removeGeneration (id : String) (generation : Uuid) (reason : String) (markUnavailable : Bool)
  | sendDrainStop (generation : Uuid)
  | superviseExtension (generation : Uuid)
  deriving DecidableEq, Repr

structure State where
  extensions : OrdMap String ExtHandle
  routes : OrdMap String String
  channelPrefixes : OrdMap String String
  unavailableRoutes : OrdMap String String
  failedExtensions : OrdMap String String
  supervisors : List Supervisor
  tasks : List (List Op)
  deriving DecidableEq

namespace State

def new : State := ⟨.empty, .empty, .empty, .empty, .empty, [], []⟩

def extensionIsActive (s : State) (id : String) (generation : Uuid) : Bool :=
  (s.extensions.get? id).any fun handle => handle.generation == generation

end State

def insertAll (m : OrdMap String String) (keys : List String) (value : String) :
    OrdMap String String :=
  keys.foldl (fun m key => m.insert key value) m

def eraseAll (m : OrdMap String String) (keys : List String) : OrdMap String String :=
  keys.foldl OrdMap.erase m

/-- Rows go by the owner's id, whichever generation put them there. -/
def unrouteExtension (handle : ExtHandle) : List Op :=
  [.dropRoutes handle.id, .dropPrefixes handle.id,
    .clearUnavailable (handle.candidateId :: handle.paths)]

/-- The registration critical section: the checks, then the rows of the newcomer. -/
def registerExtension (s : State) (handle : ExtHandle) : Except String State :=
  if (s.extensions.get? handle.id).isSome then
    .error ("extension collision: " ++ handle.id ++ " is already running")
  else if s.extensions.values.any fun other => other.candidateId == handle.candidateId then
    .error ("extension collision: " ++ handle.candidateId ++ " is already running")
  else match validateRegistrationClaims handle.id s.routes s.channelPrefixes handle.paths
      handle.channels with
  | .error msg => .error msg
  | .ok () => .ok { s with
      extensions := s.extensions.insert handle.id handle
      routes := insertAll s.routes handle.paths handle.id
      channelPrefixes := insertAll s.channelPrefixes handle.channels handle.id }

def newHandle (candidateId : String) (reg : Registration) (generation : Uuid) : ExtHandle :=
  ⟨candidateId, reg.id, generation, reg.id :: reg.paths, reg.channels⟩

/-- `start_extension` from the register line on, with what its caller does next. -/
def startExtension (s : State) (candidateId : String) (reg : Registration) (generation : Uuid) :
    State :=
  let handle := newHandle candidateId reg generation
  match registerExtension s handle with
  | .error msg => { s with
      tasks := s.tasks ++ [[.markFailed candidateId msg, .markUnavailable [candidateId] msg]] }
  | .ok s => { s with
      supervisors := s.supervisors ++ [⟨handle.id, generation, .starting, false⟩]
      tasks := s.tasks ++ [[.clearFailed [candidateId, handle.id],
        .clearUnavailable (candidateId :: handle.paths), .superviseExtension generation,
        .clearFailed [candidateId]]] }

/-- `stop_removed_extensions` works on the handles it read at its start. -/
def stopRemovedExtensions (s : State) (desired : List String) : State :=
  let removed := s.extensions.values.filter fun handle => handle.candidateId ∉ desired
  { s with tasks := s.tasks ++ [removed.flatMap fun handle =>
      unrouteExtension handle ++ [.sendDrainStop handle.generation]] }

def modifySupervisor (s : State) (generation : Uuid) (f : Supervisor → Supervisor) : State :=
  { s with supervisors := s.supervisors.map fun sup =>
      if sup.generation = generation then f sup else sup }

/-- What one section does to the state, and what its task goes on with. -/
def Op.run (s : State) : Op → State × List Op
  | .dropRoutes id => ({ s with routes := s.routes.retain fun _ owner => owner ≠ id }, [])
  | .dropPrefixes id =>
    ({ s with channelPrefixes := s.channelPrefixes.retain fun _ owner => owner ≠ id }, [])
  | .clearUnavailable keys =>
    ({ s with unavailableRoutes := eraseAll s.unavailableRoutes keys }, [])
  | .markUnavailable keys reason =>
    ({ s with unavailableRoutes := insertAll s.unavailableRoutes keys reason }, [])
  | .clearFailed keys => ({ s with failedExtensions := eraseAll s.failedExtensions keys }, [])
  | .markFailed key reason =>
    ({ s with failedExtensions := s.failedExtensions.insert key reason }, [])
  | .removeGeneration id generation reason mark =>
    match s.extensions.get? id with
    | none => (s, [])
    | some handle =>
      if handle.generation = generation then
        let keys := handle.candidateId :: handle.paths
        ({ s with extensions := s.extensions.erase id }, unrouteExtension handle ++
          [if mark then .markUnavailable keys reason else .clearUnavailable keys])
      else (s, [])
  | .sendDrainStop generation =>
    (modifySupervisor s generation fun sup => { sup with drainStop := true }, [])
  | .superviseExtension generation =>
    (modifySupervisor s generation fun sup => { sup with phase := .watching }, [])

/-- A crash of the process is the end of the run: no table outlives it. -/
inductive Action
  | start (candidateId : String) (reg : Registration) (generation : Uuid)
  | stopRemoved (desired : List String)
  | runTask (task : Nat)
  | exits (supervisor : Nat) (reason : String)
  | takeDrainStop (supervisor : Nat)
  | drained (supervisor : Nat) (reason : String)
  deriving DecidableEq, Repr

/-- The supervisor goes on to `cleanup_extension_generation`. -/
def cleanup (s : State) (i : Nat) (sup : Supervisor) (reason : String) (mark : Bool) : State :=
  { s with
    supervisors := s.supervisors.eraseIdx i
    tasks := s.tasks ++ [[.removeGeneration sup.id sup.generation reason mark]] }

/-- `exits` is an exit, a crash or a kill of a watched child. A drain ends in its own
time, and the reader goes on until the generation is removed. The commands channel does
not close before that: the handle in the table holds a sender. -/
def step (s : State) : Action → Option State
  | .start candidateId reg generation => some (startExtension s candidateId reg generation)
  | .stopRemoved desired => some (stopRemovedExtensions s desired)
  | .runTask i =>
    match s.tasks[i]? with
    | some (op :: rest) =>
      let (s, more) := op.run s
      some { s with tasks := s.tasks.set i (more ++ rest) }
    | _ => none
  | .exits i reason =>
    match s.supervisors[i]? with
    | some sup => if sup.phase = .watching then some (cleanup s i sup reason true) else none
    | none => none
  | .takeDrainStop i =>
    match s.supervisors[i]? with
    | some sup =>
      if sup.phase = .watching ∧ sup.drainStop = true then
        some { s with supervisors :=
          s.supervisors.set i { sup with phase := .draining, drainStop := false } }
      else none
    | none => none
  | .drained i reason =>
    match s.supervisors[i]? with
    | some sup => if sup.phase = .draining then some (cleanup s i sup reason false) else none
    | none => none

end Whdr.Lifecycle
