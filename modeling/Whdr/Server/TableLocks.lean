import Mathlib.Data.Finset.Insert
import Whdr.Lib.LockRuns

/-! The locks of the daemon's tables (daemon.rs): what each function asks for, waits for
and gives back. A section is a stretch between two points where the function has no guard. -/
namespace Whdr.TableLocks

open FairLocks

inductive Lock
  | extensions
  | routes
  | channelPrefixes
  | unavailableRoutes
  | failedExtensions
  | config
  deriving DecidableEq, Repr

instance : Fintype Lock where
  elems := {.extensions, .routes, .channelPrefixes, .unavailableRoutes, .failedExtensions, .config}
  complete lock := by cases lock <;> decide

inductive Section
  | one (lock : Lock) (mode : Mode)
  | statusJson
  | missUnavailable
  | missFailed
  | register
  deriving DecidableEq, Repr

abbrev read (lock : Lock) : Section := .one lock .read

abbrev write (lock : Lock) : Section := .one lock .write

/-- Ask and wait at once, as `lock.read().await` does. -/
def take (lock : Lock) (mode : Mode) : List (Instr Lock) := [.ask lock mode, .await [lock]]

/-- The guards of `status_json` on `extensions` and `failed_extensions` live to its end;
`config` is held over both lookups of a missed route. The `join!` of a registration polls
its three writes one after the other and then waits for all. -/
def Section.instrs : Section → List (Instr Lock)
  | .one lock mode => take lock mode ++ [.release lock mode]
  | .statusJson =>
    take .extensions .read ++ take .failedExtensions .read ++
    take .routes .read ++ [.release .routes .read] ++
    take .unavailableRoutes .read ++ [.release .unavailableRoutes .read] ++
    take .channelPrefixes .read ++ [.release .channelPrefixes .read] ++
    [.release .failedExtensions .read, .release .extensions .read]
  | .missUnavailable =>
    take .config .read ++ take .unavailableRoutes .read ++
    [.release .unavailableRoutes .read, .release .config .read]
  | .missFailed =>
    take .config .read ++ take .unavailableRoutes .read ++ [.release .unavailableRoutes .read] ++
    take .failedExtensions .read ++ [.release .failedExtensions .read, .release .config .read]
  | .register =>
    [.ask .extensions .write, .ask .routes .write, .ask .channelPrefixes .write,
      .await [.extensions, .routes, .channelPrefixes], .release .channelPrefixes .write,
      .release .routes .write, .release .extensions .write]

/-! ## The functions -/

/-- How a `start_extension` ends: before the registration, in it, or ready. -/
inductive Start
  | failed
  | rejected
  | ready
  deriving DecidableEq, Repr

def startExtension : Start → List Section
  | .failed => [read .config]
  | .rejected => [read .config, .register]
  | .ready => [read .config, .register, write .failedExtensions, write .unavailableRoutes]

/-- A start with what its caller records. -/
def recordedStart (start : Start) : List Section :=
  startExtension start ++ match start with
    | .ready => [write .failedExtensions]
    | _ => [write .failedExtensions, write .unavailableRoutes]

/-- How far the lookups of a dispatch go. -/
inductive Lookup
  | enabled
  | unavailable
  | failedOrNotFound
  | noHandle
  | handle
  deriving DecidableEq, Repr

def dispatch : Lookup → List Section
  | .enabled => [read .routes, read .config]
  | .unavailable => [read .routes, .missUnavailable]
  | .failedOrNotFound => [read .routes, .missFailed]
  | .noHandle => [read .routes, read .extensions]
  | .handle => [read .routes, read .extensions, read .config]

def unrouteExtension : List Section :=
  [write .routes, write .channelPrefixes, write .unavailableRoutes]

def cleanupExtensionGeneration (found : Bool) : List Section :=
  write .extensions :: if found then unrouteExtension ++ [write .unavailableRoutes] else []

/-- `shuttingDown` and `failed` end it before the next table. -/
def shouldRespawn (shuttingDown failed : Bool) : List Section :=
  if shuttingDown then []
  else read .failedExtensions :: if failed then [] else [read .config]

def nextRespawnDelay (crashloop : Bool) : List Section :=
  read .config :: if crashloop then [write .failedExtensions, write .unavailableRoutes] else []

/-- `removed` handles are drained; `wanted` says for every enabled id whether its binary is
missing, `starts` for every desired one how its start ends, if it is not active. -/
def startExtensions (removed : Nat) (wanted : List Bool) (starts : List (Option Start)) :
    List Section :=
  read .config :: read .extensions :: (List.replicate removed unrouteExtension).flatten ++
    (wanted.flatMap fun missing => read .extensions ::
      if missing then [write .failedExtensions, write .unavailableRoutes] else []) ++
    starts.flatMap fun start => read .extensions :: (start.map recordedStart).getD []

def reload (removed : Nat) (wanted : List Bool) (starts : List (Option Start)) : List Section :=
  write .config :: startExtensions removed wanted starts

/-- `polls`: the looks at the window of a drain, none without one. `respawn`: how far the
supervisor goes on after its cleanup. -/
inductive Respawn
  | refused (shuttingDown failed : Bool)
  | crashloop
  | refusedLater (shuttingDown failed : Bool)
  | active
  | start (start : Start)
  deriving DecidableEq, Repr

def superviseExtension (polls : Option Nat) (found : Bool) (respawn : Option Respawn) :
    List Section :=
  ((polls.map fun n => read .config :: List.replicate (n + 1) (read .extensions)).getD []) ++
    cleanupExtensionGeneration found ++
    match respawn with
    | none => []
    | some (.refused shuttingDown failed) => shouldRespawn shuttingDown failed
    | some .crashloop => shouldRespawn false false ++ nextRespawnDelay true
    | some (.refusedLater shuttingDown failed) =>
      shouldRespawn false false ++ nextRespawnDelay false ++ shouldRespawn shuttingDown failed
    | some .active =>
      shouldRespawn false false ++ nextRespawnDelay false ++ shouldRespawn false false ++
        [read .extensions]
    | some (.start start) =>
      shouldRespawn false false ++ nextRespawnDelay false ++ shouldRespawn false false ++
        read .extensions :: recordedStart start

inductive Routine
  | statusJson
  | startExtension (start : Start)
  | dispatch (lookup : Lookup)
  | unrouteExtension
  | cleanupExtensionGeneration (found : Bool)
  | shouldRespawn (shuttingDown failed : Bool)
  | reload (removed : Nat) (wanted : List Bool) (starts : List (Option Start))
  | superviseExtension (polls : Option Nat) (found : Bool) (respawn : Option Respawn)
  deriving DecidableEq, Repr

def Routine.sections : Routine → List Section
  | .statusJson => [.statusJson]
  | .startExtension start => TableLocks.startExtension start
  | .dispatch lookup => TableLocks.dispatch lookup
  | .unrouteExtension => TableLocks.unrouteExtension
  | .cleanupExtensionGeneration found => TableLocks.cleanupExtensionGeneration found
  | .shouldRespawn shuttingDown failed => TableLocks.shouldRespawn shuttingDown failed
  | .reload removed wanted starts => TableLocks.reload removed wanted starts
  | .superviseExtension polls found respawn => TableLocks.superviseExtension polls found respawn

/-- Any number of instances of the functions at once. -/
def step : State Lock Section → Action Routine → Option (State Lock Section) :=
  FairLocks.step Routine.sections Section.instrs

/-! ## What the sections have in common -/

/-- Guards are taken upwards, the registration apart. -/
def level : Lock → Nat
  | .extensions | .config => 0
  | .failedExtensions => 1
  | .routes | .channelPrefixes | .unavailableRoutes => 2

def tables : List Lock := [.extensions, .routes, .channelPrefixes]

/-- At a wait a section is a registration with its three requests, or it waits for its
highest lock. With `extensions` below, that is `channelPrefixes` unless it comes later. -/
def Climbs : List (Instr Lock) → Prop
  | .await ls :: p => (ls = tables ∧ ∀ l ∈ tables, (l, Mode.write) ∈ owed p) ∨
      ∃ k ∈ ls, ls = [k] ∧ (∀ r ∈ owed p, r.1 = k ∨ level r.1 < level k) ∧
        ((∃ r ∈ owed p, r.1 = .extensions) → k ≠ .extensions →
          asksBefore .channelPrefixes .extensions p = false → k = .channelPrefixes)
  | _ => True

instance (p : List (Instr Lock)) : Decidable (Climbs p) :=
  match p with
  | .await _ :: _ => inferInstanceAs (Decidable (_ ∨ _))
  | [] | .ask _ _ :: _ | .release _ _ :: _ => isTrue trivial

theorem sections_climb (sec : Section) : ∀ p ∈ sec.instrs.tails, Climbs p := by
  cases sec with
  | one lock mode => cases lock <;> cases mode <;> decide
  | _ => decide

theorem sections_closed (sec : Section) : Closed sec.instrs := by
  cases sec with
  | one lock mode => cases lock <;> cases mode <;> decide
  | _ => decide

theorem extensions_first : WritesFirst Section.instrs .extensions := by
  have all : ∀ sec : Section, ∀ p ∈ sec.instrs.tails,
      p.head? = some (.ask .extensions .write) → owed p = [] := by
    intro sec
    cases sec with
    | one lock mode => cases lock <;> cases mode <;> decide
    | _ => decide
  intro sec p inside
  exact all sec _ ((List.mem_tails _ _).mpr inside) rfl

end Whdr.TableLocks
