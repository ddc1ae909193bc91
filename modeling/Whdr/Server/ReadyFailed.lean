import Whdr.Server.DaemonSteps

/-! A running extension is not recorded as failed, as long as a failure is recorded only
while the candidate does not run. -/
namespace Whdr.Daemon

open Lifecycle (ExtHandle newHandle eraseAll)
open Runs (Reaches exec guarded reaches_of_exec)

variable {s t u : State} {op : Op} {choice : Choice} {more : List Op} {a : Action}

/-! ## The property and its condition -/

/-- Part of a `start_extension` call, or of what its caller records. -/
def Op.ofStart : Op → Bool
  | .startExtension _ | .clearFailed _ | .superviseExtension _ | .markFailed .start _ _
  | .markUnavailable .start _ _ _ => true
  | _ => false

/-- Between the starts no running candidate is failed, so `should_respawn` would not
refuse to restart it. -/
def ReadyOrFailed (s : State) : Prop :=
  ¬ s.Pending (fun op => op.ofStart = true) → ∀ handle ∈ s.tables.extensions.values,
    s.isFailed handle.candidateId = false ∧
      (s.isWanted handle.candidateId = true → s.shouldRespawn handle.candidateId = true)

/-- The section erases the failure of the candidate. -/
def Op.clears (candidateId : String) : Op → Bool
  | .clearFailed keys => candidateId ∈ keys
  | _ => false

/-- A failure is recorded only while no handle of the candidate is in the table, or while
the start that put it there has still to erase the failures. -/
def FailsUnopposed (s : State) : Action → Prop
  | .run i _ =>
    match s.next i with
    | some (.markFailed _ candidateId _) => s.extensionCandidateIsActive candidateId = false ∨
      s.Pending fun op => op.clears candidateId = true
    | _ => True
  | _ => True

instance (s : State) : (a : Action) → Decidable (FailsUnopposed s a)
  | .reload _ | .changePath _ => isTrue trivial
  | .run i _ => by
    dsimp only [FailsUnopposed]
    rcases s.next i with _ | op
    · exact isTrue trivial
    · rcases op with _ | _ <;> infer_instance

/-! ## The invariant -/

/-- A failure of a running candidate is about to be erased. -/
def Erasing (s : State) : Prop :=
  ∀ handle ∈ s.tables.extensions.values, s.isFailed handle.candidateId = true →
    s.Pending fun op => op.clears handle.candidateId = true

theorem reads_clears (reads : Reads s op choice more) (candidateId : String) :
    op.clears candidateId = false := by
  cases reads <;> rfl

theorem erasing_of_kept (erasing : Erasing s) (took : Took s t op more)
    (table : ∀ handle ∈ t.tables.extensions.values, handle ∈ s.tables.extensions.values)
    (failed : ∀ key, t.isFailed key = true → s.isFailed key = true ∧ op.clears key = false) :
    Erasing t := by
  intro handle mem isFailed
  obtain ⟨before, keeps⟩ := failed handle.candidateId isFailed
  obtain own | pending := took.kept (erasing handle (table handle mem) before)
  · rw [keeps] at own
    cases own
  · exact pending

theorem isFailed_eraseAll {failed : OrdMap String String} {keys : List String} {key : String}
    (h : ((eraseAll failed keys).get? key).isSome = true) :
    (failed.get? key).isSome = true ∧ key ∉ keys := by
  rw [get?_eraseAll] at h
  split at h
  · cases h
  · rename_i other
    exact ⟨h, other⟩

theorem run_erasing {i : Nat} (erasing : Erasing s) (unopposed : FailsUnopposed s (.run i choice))
    (hs : step s (.run i choice) = some t) : Erasing t := by
  obtain ⟨op, u, more, tasks, next, ran, took, rfl⟩ := step_cases hs
  simp only [FailsUnopposed, next] at unopposed
  have table (handle : ExtHandle) (mem : handle ∈ u.tables.extensions.values) :=
    ran_extensions ran mem
  cases ran with
  | reads reads =>
    exact erasing_of_kept erasing took (fun _ mem => mem)
      (fun key failed => ⟨failed, reads_clears reads key⟩)
  | @registers candidateId reg tables ok =>
    intro handle mem failed
    obtain old | ⟨_, _, eq, _, rfl, _, _⟩ := table handle mem
    · have failed : s.isFailed handle.candidateId = true := by
        obtain ⟨_, _, rfl⟩ := Lifecycle.registerExtension_ok ok
        exact failed
      obtain own | pending := took.kept (erasing handle old failed)
      · cases own
      · exact pending
    · cases eq
      apply took.added (x := .clearFailed [candidateId, reg.id]) (by simp)
      simp [Op.clears, newHandle]
  | clearFailed keys =>
    apply erasing_of_kept erasing took (fun _ mem => mem)
    intro key failed
    obtain ⟨before, other⟩ := isFailed_eraseAll failed
    exact ⟨before, by simpa [Op.clears] using other⟩
  | markFailed author candidateId reason =>
    intro handle mem failed
    have opposed : s.Pending fun op => op.clears handle.candidateId = true := by
      by_cases same : handle.candidateId = candidateId
      · subst same
        obtain idle | pending := unopposed
        · have active : s.extensionCandidateIsActive handle.candidateId = true :=
            active_iff.mpr ⟨handle, mem, rfl⟩
          rw [idle] at active
          cases active
        · exact pending
      · apply erasing handle mem
        have kept : (s.tables.failedExtensions.insert candidateId reason).get?
            handle.candidateId = s.tables.failedExtensions.get? handle.candidateId := by
          rw [OrdMap.get?_insert, if_neg same]
        unfold State.isFailed
        rw [← kept]
        exact failed
    obtain own | pending := took.kept opposed
    · cases own
    · exact pending
  | removes present same =>
    apply erasing_of_kept erasing took
    · intro handle mem
      obtain old | ⟨_, _, eq, _⟩ := table handle mem
      · exact old
      · cases eq
    · exact fun key failed => ⟨failed, rfl⟩
  | _ => exact erasing_of_kept erasing took (fun _ mem => mem) (fun key failed => ⟨failed, rfl⟩)

theorem step_erasing (erasing : Erasing s) (unopposed : FailsUnopposed s a)
    (hs : step s a = some t) : Erasing t := by
  cases a with
  | reload config =>
    simp only [step] at hs
    split at hs
    · cases hs
    · cases hs
      intro handle mem failed
      exact pending_append (erasing handle mem failed) _ rfl
  | changePath discovered =>
    cases hs
    exact erasing
  | run i choice => exact run_erasing erasing unopposed hs

/-- Along every run in which failures are recorded only of candidates that do not run,
ready and failed exclude each other between the starts. -/
theorem ready_or_failed (run : Reaches (fun s => ∃ config discovered, s = boot config discovered)
    step FailsUnopposed s) : ReadyOrFailed s := by
  have erasing : Erasing s := by
    apply run.invariant Erasing
    · rintro _ ⟨config, discovered, rfl⟩ handle mem
      cases mem
    · intro s a t _ erasing unopposed hs
      exact step_erasing erasing unopposed hs
  intro quiet handle mem
  have fine : s.isFailed handle.candidateId = false := by
    cases failed : s.isFailed handle.candidateId with
    | false => rfl
    | true =>
      obtain ⟨ops, inTasks, op, inOps, clears⟩ := erasing handle mem failed
      refine absurd ⟨ops, inTasks, op, inOps, ?_⟩ quiet
      cases op with
      | clearFailed keys => rfl
      | _ => cases clears
  exact ⟨fine, fun wanted => by simp [State.shouldRespawn, fine, wanted]⟩

/-- The first start fails, the one of the next reload registers. -/
def failThenReload : List Action :=
  upToStart 0 ++ [.run 0 (.fails "no register line")] ++ finish 0 3 ++
    [.reload ⟨false, ["c"]⟩] ++ upToStart 1 ++ [.run 1 (.registers ⟨"c", [], []⟩)] ++ finish 1 5

theorem ready_or_failed_reloaded :
    ∃ s, exec (guarded FailsUnopposed step) (boot ⟨false, ["c"]⟩ ["c"]) failThenReload = some s ∧
      s.tables.extensions.keys = ["c"] ∧ ReadyOrFailed s := by
  have run : (exec (guarded FailsUnopposed step) (boot ⟨false, ["c"]⟩ ["c"]) failThenReload).map
      (fun s => s.tables.extensions.keys) = some ["c"] := by decide
  obtain ⟨s, hs, keys⟩ := Option.map_eq_some_iff.mp run
  exact ⟨s, hs, keys, ready_or_failed (reaches_of_exec _ (.start ⟨_, _, rfl⟩) hs)⟩

/-- The supervisor and a reload start the crashed candidate at once. The respawn registers,
the call of the reload collides with it, and the reload records the failure. -/
def twoStarts : List Action :=
  upToStart 0 ++ [.run 0 (.registers ⟨"c", [], []⟩)] ++ finish 0 5 ++
    [.run 1 (.exits "crashed")] ++ finish 1 12 ++ [.reload ⟨false, ["c"]⟩] ++ upToStart 2 ++
    [.run 1 (.registers ⟨"c", [], []⟩)] ++ finish 1 4 ++
    [.run 2 (.registers ⟨"c", [], []⟩)] ++ finish 2 3

theorem running_extension_failed :
    ¬ ∀ s, Reaches (fun s => ∃ config discovered, s = boot config discovered) step
      (fun _ _ => True) s → ReadyOrFailed s := by
  intro claim
  have run : (exec (guarded (fun _ _ => True) step) (boot ⟨false, ["c"]⟩ ["c"]) twoStarts).map
      (fun s => (s.tables.extensions.get? "c", s.isFailed "c",
        decide (s.Pending fun op => op.ofStart = true))) =
      some (some ⟨"c", "c", 1, ["c"], []⟩, true, false) := by decide
  obtain ⟨s, hs, found⟩ := Option.map_eq_some_iff.mp run
  obtain ⟨handle, found⟩ := Prod.mk.inj found
  obtain ⟨failed, quiet⟩ := Prod.mk.inj found
  have running : ⟨"c", "c", 1, ["c"], []⟩ ∈ s.tables.extensions.values :=
    (OrdMap.mem_values_iff _ _).mpr ⟨"c", handle⟩
  have fine := claim s (reaches_of_exec _ (.start ⟨_, _, rfl⟩) hs) (of_decide_eq_false quiet)
    _ running
  rw [failed] at fine
  cases fine.1

end Whdr.Daemon
