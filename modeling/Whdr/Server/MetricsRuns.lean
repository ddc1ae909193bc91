import Whdr.Server.MetricsSeries
import Whdr.Server.ReadyFailed

/-! The metrics page along the runs of the daemon. It repeats no series as long as an
extension registers under an id no failure is recorded under, and a failure is recorded
under a key that no running extension has for its id. -/
namespace Whdr.Metrics

open Daemon (State Op Choice Action Known boot step step_cases)
open Lifecycle (ExtHandle newHandle registerExtension registerExtension_ok)
open Runs (Reaches exec guarded reaches_of_exec)

variable {s t u : State} {op : Op} {choice : Choice} {more : List Op} {a : Action}

/-- No running extension has the id of a failure. -/
def Apart (s : State) : Prop :=
  ∀ id, (s.tables.extensions.get? id).isSome = true → s.isFailed id = false

theorem rowIds_nodup (known : Known s) : (rowIds s).Nodup ↔ Apart s := by
  have ids : s.tables.extensions.values.map (·.id) = s.tables.extensions.keys := by
    rw [OrdMap.values, OrdMap.keys, List.map_map]
    apply List.map_congr_left
    rintro ⟨id, handle⟩ mem
    exact known.keyed id handle ((OrdMap.get?_eq_some_iff _ _ _).mpr mem)
  rw [rowIds, ids, List.nodup_append]
  constructor
  · rintro ⟨-, -, apart⟩ id running
    rw [State.isFailed, Bool.eq_false_iff]
    intro failed
    exact apart id ((OrdMap.mem_keys_iff _ _).mpr running) id
      ((OrdMap.mem_keys_iff _ _).mpr failed) rfl
  · intro apart
    refine ⟨OrdMap.nodup_keys _, OrdMap.nodup_keys _, ?_⟩
    rintro id running _ failed rfl
    have none := apart id ((OrdMap.mem_keys_iff _ _).mp running)
    rw [State.isFailed, (OrdMap.mem_keys_iff _ _).mp failed] at none
    cases none

/-! ## The condition -/

/-- The step does not bring a running extension and a failure under one id. -/
def FreshRow (s : State) : Action → Prop
  | .run i choice =>
    match s.next i, choice with
    | some (.startExtension candidateId), .registers reg =>
      (registerExtension s.tables (newHandle candidateId reg s.registered.length)).isOk = true →
        s.isFailed reg.id = false
    | some (.markFailed _ key _), _ => (s.tables.extensions.get? key).isSome = false
    | _, _ => True
  | _ => True

instance (s : State) : (a : Action) → Decidable (FreshRow s a)
  | .reload _ | .changePath _ => isTrue trivial
  | .run i choice => by
    dsimp only [FreshRow]
    rcases s.next i with _ | op
    · exact isTrue trivial
    · rcases op with _ | _ <;> rcases choice with _ | _ <;> infer_instance

/-- Fewer running extensions and fewer failures stay apart. -/
theorem Apart.fewer (apart : Apart s)
    (running : ∀ id, (t.tables.extensions.get? id).isSome = true →
      (s.tables.extensions.get? id).isSome = true)
    (failed : ∀ id, t.isFailed id = true → s.isFailed id = true) : Apart t := by
  intro id isRunning
  rw [Bool.eq_false_iff]
  intro isFailed
  have none := apart id (running id isRunning)
  rw [failed id isFailed] at none
  cases none

theorem run_apart {i : Nat} (apart : Apart s) (fresh : FreshRow s (.run i choice))
    (hs : step s (.run i choice) = some t) : Apart t := by
  obtain ⟨op, u, more, tasks, next, ran, -, rfl⟩ := step_cases hs
  simp only [FreshRow, next] at fresh
  cases ran with
  | @registers candidateId reg tables ok =>
    have unfailed : s.isFailed reg.id = false := fresh (by rw [ok]; rfl)
    obtain ⟨-, -, rfl⟩ := registerExtension_ok ok
    intro id running
    by_cases same : id = reg.id
    · subst same
      exact unfailed
    · apply apart id
      rw [← OrdMap.get?_insert_ne s.tables.extensions
        (newHandle candidateId reg s.registered.length) same]
      exact running
  | clearFailed keys =>
    refine apart.fewer ?_ ?_
    · exact fun id running => running
    · intro id failed
      exact (Daemon.isFailed_eraseAll failed).1
  | markFailed author key reason =>
    intro id running
    change (s.tables.extensions.get? id).isSome = true at running
    have other : id ≠ key := by
      rintro rfl
      rw [fresh] at running
      cases running
    have kept := OrdMap.get?_insert_ne s.tables.failedExtensions reason other
    change ((s.tables.failedExtensions.insert key reason).get? id).isSome = false
    rw [kept]
    exact apart id running
  | @removes handle found crash present same =>
    refine apart.fewer ?_ ?_
    · intro id running
      change ((s.tables.extensions.erase handle.id).get? id).isSome = true at running
      rw [OrdMap.get?_erase] at running
      split at running
      · cases running
      · exact running
    · exact fun id failed => failed
  | _ => exact apart

theorem step_apart (apart : Apart s) (fresh : FreshRow s a) (hs : step s a = some t) :
    Apart t := by
  cases a with
  | reload config =>
    obtain ⟨-, rfl⟩ := Daemon.step_reload hs
    exact apart
  | changePath discovered =>
    cases hs
    exact apart
  | run i choice => exact run_apart apart fresh hs

/-- Along every run whose steps bring no running extension and failure under one id, the
page repeats no series: whatever the counters, the connections, the log and the order of the
rows. -/
theorem page_repeats_nothing (run : Reaches
      (fun s => ∃ config discovered, s = boot config discovered) step FreshRow s)
    (later : State) (readings : ExtHandle → Readings) (registry : SubscriberRegistry)
    (rows : Listing s registry) (uptimeMs : Nat) :
    NoRepeats (renderPrometheus (statusJson rows later readings uptimeMs)) := by
  have valid : Known s ∧ Apart s := by
    apply run.invariant fun s => Known s ∧ Apart s
    · rintro _ ⟨config, discovered, rfl⟩
      exact ⟨Daemon.known_boot config discovered, fun _ running => nomatch running⟩
    · rintro s a t - ⟨known, apart⟩ fresh hs
      exact ⟨Daemon.step_known known hs, step_apart apart fresh hs⟩
  exact noRepeats_status.mpr ((rowIds_nodup valid.1).mpr valid.2)

/-- One candidate is missing, the other runs. -/
def missingAndRunning : List Action :=
  Daemon.finish 0 8 ++ [.run 0 (.pick 0), .run 0 (.registers ⟨"b", [], []⟩)] ++ Daemon.finish 0 5

theorem page_repeats_nothing_missing :
    ∃ s, exec (guarded FreshRow step) (boot ⟨false, ["a", "b"]⟩ ["b"]) missingAndRunning = some s ∧
      rowIds s = ["b", "a"] ∧ ∀ later readings registry (rows : Listing s registry) uptimeMs,
        NoRepeats (renderPrometheus (statusJson rows later readings uptimeMs)) := by
  have run : (exec (guarded FreshRow step) (boot ⟨false, ["a", "b"]⟩ ["b"]) missingAndRunning).map
      rowIds = some ["b", "a"] := by decide
  obtain ⟨s, hs, ids⟩ := Option.map_eq_some_iff.mp run
  exact ⟨s, hs, ids, page_repeats_nothing (reaches_of_exec _ (.start ⟨_, _, rfl⟩) hs)⟩

/-- The missing candidate's name is the id that the other one registers. The start clears
the failure, the next reload records it again. -/
def missingIdTaken : List Action :=
  Daemon.finish 0 8 ++ [.run 0 (.pick 0), .run 0 (.registers ⟨"a", [], []⟩)] ++
    Daemon.finish 0 5 ++ [.reload ⟨false, ["a", "b"]⟩] ++ Daemon.finish 2 5

theorem taken_id_repeats_series :
    ¬ ∀ s, Reaches (fun s => ∃ config discovered, s = boot config discovered) step
      (fun _ _ => True) s → ∀ later readings registry (rows : Listing s registry) uptimeMs,
        NoRepeats (renderPrometheus (statusJson rows later readings uptimeMs)) := by
  intro claim
  have run : (exec (guarded (fun _ _ => True) step) (boot ⟨false, ["a", "b"]⟩ ["b"])
      missingIdTaken).map rowIds = some ["a", "a"] := by decide
  obtain ⟨s, hs, ids⟩ := Option.map_eq_some_iff.mp run
  have fine := claim s (reaches_of_exec _ (.start ⟨_, _, rfl⟩) hs) s
    (fun _ => ⟨none, "", 0, 0, 0, 0, 0, 0, 0⟩) .new (.inOrder s .new) 0
  rw [noRepeats_status, ids] at fine
  exact absurd fine (by decide)

end Whdr.Metrics
