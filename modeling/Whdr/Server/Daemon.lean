import Mathlib.Data.List.Dedup
import Whdr.Lib.Runs
import Whdr.Server.Exclusivity

/-! Who starts, drains and restarts the extensions (daemon.rs): `start_extensions` in a
reload, `supervise_extension` for every generation. A task is the list of what it has
still to do, one critical section or one wait at a time. The server is not shutting down. -/
namespace Whdr.Daemon

open Lifecycle (ExtHandle Registration newHandle registerExtension insertAll)

structure Config where
  autostartAll : Bool
  enabled : List String
  deriving DecidableEq, Repr

/-- What comes after an `unroute_extension`: the `DrainStop` of a reload, or the rest of a
cleanup. -/
inductive After
  | drainStop
  | crashed (candidateId reason : String)
  | drained
  deriving DecidableEq, Repr

/-- Who records a failure. -/
inductive Author
  | missing
  | start
  | crash
  | crashloop
  deriving DecidableEq, Repr

inductive Op
  | startExtensions
  | stopRemoved (desired enabled : List String)
  | stopLoop (left : List ExtHandle)
  | wantedLoop (left desired : List String)
  | startLoop (left : List String)
  | dropRoutes (handle : ExtHandle) (after : After)
  | dropPrefixes (handle : ExtHandle) (after : After)
  | clearUnrouted (handle : ExtHandle) (after : After)
  | sendDrainStop (handle : ExtHandle)
  | startExtension (candidateId : String)
  | clearFailed (keys : List String)
  | clearUnavailable (keys : List String)
  | superviseExtension (handle : ExtHandle)
  | markFailed (author : Author) (candidateId reason : String)
  | markUnavailable (author : Author) (candidateId : String) (keys : List String) (reason : String)
  | watch (handle : ExtHandle)
  | drain (handle : ExtHandle)
  | removeGeneration (handle : ExtHandle) (crash : Option String)
  | respawnFailed (candidateId : String) (late : Bool)
  | respawnConfig (candidateId : String) (late : Bool)
  | nextRespawnDelay (candidateId : String)
  | sleep (candidateId : String)
  | respawnActive (candidateId : String)
  deriving DecidableEq, Repr

/-- `tables`: its own tasks are not used, a task is in `tasks`. `registered`: every handle
that ever got into the table, under its generation. `drainStops`: the generations whose
command channel holds a `DrainStop`. -/
structure State where
  config : Config
  discovered : List String
  tables : Lifecycle.State
  registered : List ExtHandle
  drainStops : List Uuid
  tasks : List (List Op)
  deriving DecidableEq

/-- The start of the daemon: the tables are empty and `start_extensions` is next. -/
def boot (config : Config) (discovered : List String) : State :=
  ⟨config, discovered, .new, [], [], [[.startExtensions]]⟩

namespace State

/-- The candidates that a reload wants to run. -/
def desired (s : State) : List String :=
  if s.config.autostartAll then s.discovered.dedup
  else (s.config.enabled.filter (· ∈ s.discovered)).dedup

def extensionCandidateIsActive (s : State) (candidateId : String) : Bool :=
  s.tables.extensions.values.any fun handle => handle.candidateId == candidateId

/-- The two reads of `should_respawn`. -/
def isFailed (s : State) (candidateId : String) : Bool :=
  (s.tables.failedExtensions.get? candidateId).isSome

def isWanted (s : State) (candidateId : String) : Bool :=
  s.config.autostartAll || s.config.enabled.any fun wanted => wanted == candidateId

def shouldRespawn (s : State) (candidateId : String) : Bool :=
  !s.isFailed candidateId && s.isWanted candidateId

/-- Some task satisfies `p` with one of the things it has still to do. -/
def Pending (s : State) (p : Op → Prop) : Prop := ∃ ops ∈ s.tasks, ∃ op ∈ ops, p op

instance (s : State) (p : Op → Prop) [DecidablePred p] : Decidable (s.Pending p) :=
  inferInstanceAs (Decidable (∃ ops ∈ s.tasks, ∃ op ∈ ops, p op))

end State

def Op.ofReload : Op → Bool
  | .startExtensions | .stopRemoved _ _ | .stopLoop _ | .wantedLoop _ _ | .startLoop _ => true
  | _ => false

/-- What the daemon leaves open: which one of a map comes next, what a child registers and
when it ends, and whether the exits of a candidate are a crashloop. -/
inductive Choice
  | go
  | pick (i : Nat)
  | fails (msg : String)
  | registers (reg : Registration)
  | exits (reason : String)
  | drainStop
  | crashloop (reason : String)
  deriving DecidableEq, Repr

def notFound : String := "extension binary not found on PATH"

/-- The records of a failed start. -/
def recordFailure (author : Author) (candidateId reason : String) : List Op :=
  [.markFailed author candidateId reason, .markUnavailable author candidateId [candidateId] reason]

/-- The keys under which a handle is unavailable. -/
def keysOf (handle : ExtHandle) : List String := handle.candidateId :: handle.paths

/-- Only a crashloop leaves an older reason in place. -/
def recordUnavailable (unavailable : OrdMap String String) (author : Author) (keys : List String)
    (reason : String) : OrdMap String String :=
  if author = .crashloop then
    insertAll unavailable (keys.filter fun key => (unavailable.get? key).isNone) reason
  else insertAll unavailable keys reason

/-- Only after a crash the supervisor marks the keys and considers a respawn. -/
def afterCleanup (handle : ExtHandle) : Option String → After
  | some reason => .crashed handle.candidateId reason
  | none => .drained

/-- One section, and what its task goes on with. -/
def Op.run (s : State) : Op → Choice → Option (State × List Op)
  | .startExtensions, .go => some (s, [.stopRemoved s.desired s.config.enabled])
  | .stopRemoved desired enabled, .go =>
    some (s, [.stopLoop (s.tables.extensions.values.filter fun handle =>
      handle.candidateId ∉ desired), .wantedLoop enabled desired, .startLoop desired])
  | .stopLoop left, .pick i =>
    left[i]?.map fun handle => (s, [.dropRoutes handle .drainStop, .stopLoop (left.eraseIdx i)])
  | .stopLoop [], .go => some (s, [])
  | .wantedLoop (wanted :: left) desired, .go =>
    some (s, (if s.extensionCandidateIsActive wanted = false ∧ wanted ∉ desired then
      recordFailure .missing wanted notFound else []) ++ [.wantedLoop left desired])
  | .wantedLoop [] _, .go => some (s, [])
  | .startLoop left, .pick i =>
    left[i]?.map fun candidateId => (s, (if s.extensionCandidateIsActive candidateId then []
      else [.startExtension candidateId]) ++ [.startLoop (left.eraseIdx i)])
  | .startLoop [], .go => some (s, [])
  | .dropRoutes handle after, .go =>
    some ({ s with tables := ((Lifecycle.Op.dropRoutes handle.id).run s.tables).1 },
      [.dropPrefixes handle after])
  | .dropPrefixes handle after, .go =>
    some ({ s with tables := ((Lifecycle.Op.dropPrefixes handle.id).run s.tables).1 },
      [.clearUnrouted handle after])
  | .clearUnrouted handle after, .go =>
    some ({ s with tables := ((Lifecycle.Op.clearUnavailable (keysOf handle)).run s.tables).1 },
      match after with
      | .drainStop => [.sendDrainStop handle]
      | .crashed candidateId reason =>
        [.markUnavailable .crash handle.candidateId (keysOf handle) reason,
          .respawnFailed candidateId false]
      | .drained => [.clearUnavailable (keysOf handle)])
  | .sendDrainStop handle, .go =>
    some ({ s with drainStops := handle.generation :: s.drainStops }, [])
  | .startExtension candidateId, .fails msg =>
    some (s, recordFailure .start candidateId msg)
  | .startExtension candidateId, .registers reg =>
    let handle := newHandle candidateId reg s.registered.length
    match registerExtension s.tables handle with
    | .error msg => some (s, recordFailure .start candidateId msg)
    | .ok tables => some ({ s with tables := tables, registered := s.registered ++ [handle] },
      [.clearFailed [candidateId, handle.id], .clearUnavailable (keysOf handle),
        .superviseExtension handle, .clearFailed [candidateId]])
  | .clearFailed keys, .go =>
    some ({ s with tables := ((Lifecycle.Op.clearFailed keys).run s.tables).1 }, [])
  | .clearUnavailable keys, .go =>
    some ({ s with tables := ((Lifecycle.Op.clearUnavailable keys).run s.tables).1 }, [])
  | .superviseExtension handle, .go =>
    some ({ s with tasks := s.tasks ++ [[.watch handle]] }, [])
  | .markFailed _ candidateId reason, .go =>
    some ({ s with tables := ((Lifecycle.Op.markFailed candidateId reason).run s.tables).1 }, [])
  | .markUnavailable author _ keys reason, .go =>
    some ({ s with tables.unavailableRoutes :=
      recordUnavailable s.tables.unavailableRoutes author keys reason }, [])
  | .watch handle, .exits reason =>
    some (s, [.removeGeneration handle (some reason)])
  | .watch handle, .drainStop =>
    if handle.generation ∈ s.drainStops then
      some ({ s with drainStops := s.drainStops.filter (· ≠ handle.generation) }, [.drain handle])
    else none
  | .drain handle, .go => some (s, [.removeGeneration handle none])
  | .removeGeneration handle crash, .go =>
    match s.tables.extensions.get? handle.id with
    | none => some (s, [])
    | some found =>
      if found.generation = handle.generation then
        some ({ s with tables.extensions := s.tables.extensions.erase handle.id },
          [.dropRoutes found (afterCleanup handle crash)])
      else some (s, [])
  | .respawnFailed candidateId late, .go =>
    some (s, if s.isFailed candidateId then [] else [.respawnConfig candidateId late])
  | .respawnConfig candidateId late, .go =>
    some (s, if s.isWanted candidateId then
      [if late then .respawnActive candidateId else .nextRespawnDelay candidateId] else [])
  | .nextRespawnDelay candidateId, .crashloop reason =>
    some (s, recordFailure .crashloop candidateId reason)
  | .nextRespawnDelay candidateId, .go => some (s, [.sleep candidateId])
  | .sleep candidateId, .go => some (s, [.respawnFailed candidateId true])
  | .respawnActive candidateId, .go =>
    some (s, if s.extensionCandidateIsActive candidateId then [] else [.startExtension candidateId])
  | _, _ => none

/-- Signals are taken one after the other, so there is one reload at a time. -/
inductive Action
  | reload (config : Config)
  | changePath (discovered : List String)
  | run (task : Nat) (choice : Choice)
  deriving DecidableEq, Repr

def step (s : State) : Action → Option State
  | .reload config =>
    if s.Pending fun op => op.ofReload = true then none
    else some { s with config := config, tasks := s.tasks ++ [[.startExtensions]] }
  | .changePath discovered => some { s with discovered := discovered }
  | .run i choice =>
    match s.tasks[i]? with
    | some (op :: rest) => (op.run s choice).map fun (u, more) =>
      { u with tasks := u.tasks.set i (more ++ rest) }
    | _ => none

/-- `start_extensions` of one candidate as task `i`, up to its `start_extension` call. -/
def upToStart (i : Nat) : List Action := List.replicate 5 (.run i .go) ++ [.run i (.pick 0)]

/-- `n` sections of task `i` that leave nothing open. -/
def finish (i n : Nat) : List Action := List.replicate n (.run i .go)

/-- Candidate `c` runs under the alias `hook`; a reload removes it and sends the
`DrainStop`. -/
def startThenRemove : List Action :=
  upToStart 0 ++ [.run 0 (.registers ⟨"c", ["hook"], []⟩)] ++ finish 0 5 ++
    [.reload ⟨false, []⟩] ++ finish 2 2 ++ [.run 2 (.pick 0)] ++ finish 2 7

end Whdr.Daemon
