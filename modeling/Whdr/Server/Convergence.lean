import Whdr.Server.DaemonSteps

/-! Reloads converge to the configuration, as long as no drain, respawn or late success
works against a configuration that came after it began. -/
namespace Whdr.Daemon

open Lifecycle (ExtHandle newHandle registerExtension)
open Runs (Reaches exec guarded reaches_of_exec)

variable {s t u : State} {op : Op} {choice : Choice} {more : List Op} {a : Action} {i : Nat}

/-! ## The property and its condition -/

/-- The supervisor watches its child, and no `DrainStop` waits for it. -/
def Op.idle (drainStops : List Uuid) : Op → Bool
  | .watch handle => handle.generation ∉ drainStops
  | _ => false

/-- Nothing is in progress: every task is over or idle. -/
def Quiescent (s : State) : Prop := ∀ ops ∈ s.tasks, ∀ op ∈ ops, op.idle s.drainStops = true

instance (s : State) : Decidable (Quiescent s) :=
  inferInstanceAs (Decidable (∀ ops ∈ s.tasks, ∀ op ∈ ops, op.idle s.drainStops = true))

/-- The table runs the desired candidates, those recorded as failed apart. -/
structure Converged (s : State) : Prop where
  noOther : ∀ handle ∈ s.tables.extensions.values, handle.candidateId ∈ s.desired
  all : ∀ candidateId ∈ s.desired, s.extensionCandidateIsActive candidateId = true ∨
    s.isFailed candidateId = true

/-- The reload under way has still to read the table. -/
def Op.beforeSnapshot : Op → Bool
  | .startExtensions | .stopRemoved _ _ => true
  | _ => false

/-- After an unroute the supervisor considers a respawn of the candidate. -/
def After.covers (candidateId : String) : After → Bool
  | .crashed other _ => other = candidateId
  | _ => false

/-- The task has still to start the candidate, or to find a reason not to. -/
def Op.covers (candidateId : String) : Op → Bool
  | .startExtensions => true
  | .stopRemoved desired _ => candidateId ∈ desired
  | .startLoop left => candidateId ∈ left
  | .dropRoutes _ after | .dropPrefixes _ after | .clearUnrouted _ after => after.covers candidateId
  | .startExtension other | .markFailed _ other _ | .respawnFailed other _
  | .respawnConfig other _ | .nextRespawnDelay other | .sleep other | .respawnActive other =>
    other = candidateId
  | _ => false

/-- What the sections do to the candidates of the current configuration: a registration
outside it comes before the snapshot of the reload; a drain ends and a failure is erased
for a candidate inside it only if somebody has still to start the candidate. PATH is fixed. -/
def FollowsConfig (s : State) : Action → Prop
  | .reload _ => True
  | .changePath _ => False
  | .run i choice =>
    match s.next i, choice with
    | some (.startExtension candidateId), .registers reg =>
      (registerExtension s.tables (newHandle candidateId reg s.registered.length)).isOk = true →
        candidateId ∈ s.desired ∨ s.Pending fun op => op.beforeSnapshot = true
    | some (.removeGeneration handle none), _ => handle.candidateId ∈ s.desired →
      s.Pending fun op => op.covers handle.candidateId = true
    | some (.clearFailed keys), _ => ∀ key ∈ keys, key ∈ s.desired → s.isFailed key = true →
      s.extensionCandidateIsActive key = true ∨ s.Pending fun op => op.covers key = true
    | _, _ => True

instance (s : State) (a : Action) : Decidable (FollowsConfig s a) := by
  unfold FollowsConfig
  split
  · exact isTrue trivial
  · exact isFalse id
  · split
    · exact inferInstance
    · exact inferInstance
    · exact inferInstance
    · exact isTrue trivial

/-! ## Undesired handles -/

/-- The task has still to drain the generation, or to look for what is to be drained. -/
def Op.drops (generation : Uuid) : Op → Bool
  | .startExtensions | .stopRemoved _ _ => true
  | .stopLoop left => left.any fun handle => handle.generation = generation
  | .dropRoutes handle .drainStop | .dropPrefixes handle .drainStop
  | .clearUnrouted handle .drainStop | .sendDrainStop handle | .drain handle
  | .removeGeneration handle _ => handle.generation = generation
  | _ => false

/-- A reload works on the desired candidates of the current configuration. -/
def SnapshotDesired (s : State) : Prop :=
  ∀ desired enabled, s.Pending (· = .stopRemoved desired enabled) → desired = s.desired

def Dropping (s : State) : Prop :=
  ∀ handle ∈ s.tables.extensions.values, handle.candidateId ∉ s.desired →
    (s.Pending fun op => op.drops handle.generation = true) ∨ handle.generation ∈ s.drainStops

theorem ran_desired (ran : Ran s op choice u more) : u.desired = s.desired := by
  cases ran <;> rfl

theorem run_snapshot (snapshot : SnapshotDesired s) (hs : step s (.run i choice) = some t) :
    SnapshotDesired t := by
  obtain ⟨op, u, more, tasks, _, ran, took, rfl⟩ := step_cases hs
  intro desired enabled pending
  change desired = u.desired
  rw [ran_desired ran]
  obtain old | ⟨x, mem, rfl⟩ | ⟨handle, _, eq⟩ := took.came pending
  · exact snapshot desired enabled old
  · cases ran with
    | reads reads =>
      cases reads with
      | startExtensions =>
        cases List.mem_singleton.mp mem
        rfl
      | _ => simp [recordFailure] at mem
    | clearUnrouted handle after => cases after <;> simp [After.next] at mem
    | _ => simp at mem
  · cases eq

theorem mem_or_picked {α : Type} {left : List α} {i : Nat} {x y : α} (picked : left[i]? = some x)
    (mem : y ∈ left) : y = x ∨ y ∈ left.eraseIdx i := by
  obtain ⟨j, found⟩ := List.mem_iff_getElem?.mp mem
  by_cases eq : j = i
  · rw [eq, picked] at found
    exact .inl (Option.some.inj found).symm
  · exact .inr (List.mem_eraseIdx_iff_getElem?.mpr ⟨j, eq, found⟩)

/-- The task hands the drain on, to its next section or to the command channel. -/
theorem drops_goes_on (snapshot : SnapshotDesired s) (took : Took s t op more)
    (ran : Ran s op choice u more) {handle : ExtHandle} (known : Known s)
    (mem : handle ∈ s.tables.extensions.values) (stays : handle ∈ u.tables.extensions.values)
    (undesired : handle.candidateId ∉ s.desired) (drops : op.drops handle.generation = true) :
    (∃ x ∈ more, x.drops handle.generation = true) ∨ handle.generation ∈ u.drainStops := by
  cases ran with
  | reads reads =>
    left
    cases reads with
    | startExtensions => exact ⟨_, List.mem_cons_self, rfl⟩
    | stopRemoved desired enabled =>
      refine ⟨_, List.mem_cons_self, ?_⟩
      have same := snapshot desired enabled took.head
      simp only [Op.drops, List.any_eq_true, decide_eq_true_eq]
      exact ⟨handle, List.mem_filter.mpr ⟨mem, by simpa [same] using undesired⟩, rfl⟩
    | @stopNext left i picked next =>
      simp only [Op.drops, List.any_eq_true, decide_eq_true_eq] at drops
      obtain ⟨other, inLeft, same⟩ := drops
      obtain rfl | later := mem_or_picked next inLeft
      · exact ⟨_, List.mem_cons_self, decide_eq_true same⟩
      · refine ⟨_, List.mem_cons_of_mem _ List.mem_cons_self, ?_⟩
        simp only [Op.drops, List.any_eq_true, decide_eq_true_eq]
        exact ⟨other, later, same⟩
    | drained => exact ⟨_, List.mem_cons_self, drops⟩
    | absent gone =>
      have eq := took.same_handle known rfl mem (of_decide_eq_true drops)
      subst eq
      exact absurd rfl (gone _ (known.get? mem))
    | _ => cases drops
  | dropRoutes other after | dropPrefixes other after =>
    left
    cases after with
    | drainStop => exact ⟨_, List.mem_cons_self, drops⟩
    | _ => cases drops
  | clearUnrouted other after =>
    left
    cases after with
    | drainStop => exact ⟨_, List.mem_cons_self, drops⟩
    | _ => cases drops
  | sendDrainStop other =>
    right
    rw [← of_decide_eq_true drops]
    exact List.mem_cons_self
  | removes present same =>
    have gone := cleanup_removes known (.removes present same) took mem (of_decide_eq_true drops)
    exact absurd stays gone
  | _ => cases drops

theorem run_dropping (known : Known s) (snapshot : SnapshotDesired s) (dropping : Dropping s)
    (follows : FollowsConfig s (.run i choice)) (hs : step s (.run i choice) = some t) :
    Dropping t := by
  obtain ⟨op, u, more, tasks, next, ran, took, rfl⟩ := step_cases hs
  intro handle mem undesired
  replace undesired : handle.candidateId ∉ s.desired := by
    rw [← ran_desired ran]
    exact undesired
  obtain old | ⟨candidateId, reg, rfl, rfl, rfl, _, new⟩ := ran_extensions ran mem
  · obtain pending | sent := dropping handle old undesired
    · obtain own | pending := took.kept pending
      · obtain ⟨x, inMore, drops⟩ | sent :=
          drops_goes_on snapshot took ran known old mem undesired own
        · exact .inl (took.added inMore drops)
        · exact .inr sent
      · exact .inl pending
    · cases ran with
      | sendDrainStop other => exact .inr (List.mem_cons_of_mem _ sent)
      | @takesDrainStop other _ =>
        by_cases same : other.generation = handle.generation
        · exact .inl (took.added List.mem_cons_self (decide_eq_true same))
        · exact .inr (List.mem_filter.mpr ⟨sent, by simpa using Ne.symm same⟩)
      | _ => exact .inr sent
  · simp only [FollowsConfig, next] at follows
    cases ran with
    | registers ok =>
      obtain desired | before := follows (by rw [ok]; rfl)
      · exact absurd desired undesired
      · obtain own | pending := took.kept before
        · cases own
        · left
          obtain ⟨ops, inTasks, op, inOps, before⟩ := pending
          refine ⟨ops, inTasks, op, inOps, ?_⟩
          cases op with
          | startExtensions | stopRemoved => rfl
          | _ => cases before
    | reads reads => cases reads; simp [recordFailure] at new

/-! ## Desired candidates -/

def Covered (s : State) : Prop :=
  ∀ candidateId ∈ s.desired, s.extensionCandidateIsActive candidateId = true ∨
    s.isFailed candidateId = true ∨ s.Pending fun op => op.covers candidateId = true

theorem isWanted_of_desired {candidateId : String} (mem : candidateId ∈ s.desired) :
    s.isWanted candidateId = true := by
  unfold State.desired at mem
  unfold State.isWanted
  cases auto : s.config.autostartAll with
  | true => rfl
  | false =>
    rw [auto] at mem
    simp only [Bool.false_eq_true, if_false, List.mem_dedup, List.mem_filter] at mem
    simpa using mem.1

/-- The task goes on with the candidate, or finds it running or failed. -/
theorem covers_goes_on (ran : Ran s op choice u more) {candidateId : String}
    (desired : candidateId ∈ s.desired) (covers : op.covers candidateId = true) :
    u.extensionCandidateIsActive candidateId = true ∨ u.isFailed candidateId = true ∨
      ∃ x ∈ more, x.covers candidateId = true := by
  cases ran with
  | reads reads =>
    cases reads with
    | startExtensions =>
      exact .inr (.inr ⟨_, List.mem_cons_self, decide_eq_true desired⟩)
    | stopRemoved =>
      exact .inr (.inr ⟨.startLoop _, by simp, covers⟩)
    | startSkips next active =>
      obtain rfl | later := mem_or_picked next (of_decide_eq_true covers)
      · exact .inl active
      · exact .inr (.inr ⟨_, List.mem_cons_self, decide_eq_true later⟩)
    | startNext next =>
      obtain rfl | later := mem_or_picked next (of_decide_eq_true covers)
      · exact .inr (.inr ⟨_, List.mem_cons_self, decide_eq_true rfl⟩)
      · exact .inr (.inr ⟨.startLoop _, by simp, decide_eq_true later⟩)
    | respawnRefused failed =>
      cases of_decide_eq_true covers
      exact .inr (.inl failed)
    | respawnUnwanted dropped =>
      cases of_decide_eq_true covers
      rw [isWanted_of_desired desired] at dropped
      cases dropped
    | respawnSkips active =>
      cases of_decide_eq_true covers
      exact .inl active
    | startFails | respawnNotFailed | respawnEarly | respawnLate | crashloop | delay | wakes
    | respawns =>
      exact .inr (.inr ⟨_, List.mem_cons_self, covers⟩)
    | _ => cases covers
  | dropRoutes other after | dropPrefixes other after =>
    exact .inr (.inr ⟨_, List.mem_cons_self, covers⟩)
  | clearUnrouted other after =>
    cases after with
    | crashed other reason =>
      exact .inr (.inr ⟨.respawnFailed other false, by simp [After.next], covers⟩)
    | _ => cases covers
  | @registers other reg tables ok =>
    cases of_decide_eq_true covers
    obtain ⟨_, _, rfl⟩ := Lifecycle.registerExtension_ok ok
    refine .inl (active_iff.mpr ⟨newHandle candidateId reg s.registered.length, ?_, rfl⟩)
    refine (OrdMap.mem_values_iff _ _).mpr ⟨reg.id, ?_⟩
    rw [OrdMap.get?_insert]
    exact if_pos rfl
  | markFailed author other reason =>
    cases of_decide_eq_true covers
    refine .inr (.inl ?_)
    simp [State.isFailed, Lifecycle.Op.run]
  | _ => cases covers

theorem ran_failed (ran : Ran s op choice u more) {candidateId : String}
    (failed : s.isFailed candidateId = true) :
    u.isFailed candidateId = true ∨ ∃ keys, op = .clearFailed keys ∧ candidateId ∈ keys := by
  cases ran with
  | registers ok =>
    obtain ⟨_, _, rfl⟩ := Lifecycle.registerExtension_ok ok
    exact .inl failed
  | clearFailed keys =>
    by_cases mem : candidateId ∈ keys
    · exact .inr ⟨keys, rfl, mem⟩
    · left
      unfold State.isFailed at failed ⊢
      simpa [Lifecycle.Op.run, get?_eraseAll, mem] using failed
  | markFailed author other reason =>
    left
    unfold State.isFailed at failed ⊢
    simp only [Lifecycle.Op.run, OrdMap.get?_insert]
    split
    · rfl
    · exact failed
  | _ => exact .inl failed

theorem run_covered (known : Known s) (covered : Covered s)
    (follows : FollowsConfig s (.run i choice)) (hs : step s (.run i choice) = some t) :
    Covered t := by
  obtain ⟨op, u, more, tasks, next, ran, took, rfl⟩ := step_cases hs
  simp only [FollowsConfig, next] at follows
  intro candidateId desired
  replace desired : candidateId ∈ s.desired := by
    rw [← ran_desired ran]
    exact desired
  have goesOn (pending : s.Pending fun op => op.covers candidateId = true) :
      u.extensionCandidateIsActive candidateId = true ∨ u.isFailed candidateId = true ∨
        State.Pending { u with tasks := tasks } fun op => op.covers candidateId = true := by
    obtain own | pending := took.kept pending
    · obtain active | failed | ⟨x, mem, covers⟩ := covers_goes_on ran desired own
      · exact .inl active
      · exact .inr (.inl failed)
      · exact .inr (.inr (took.added mem covers))
    · exact .inr (.inr pending)
  obtain active | failed | pending := covered candidateId desired
  · obtain ⟨handle, mem, rfl⟩ := active_iff.mp active
    obtain stays | ⟨other, crash, rfl, present, same, rfl⟩ := ran_stays ran mem
    · exact .inl (active_iff.mpr ⟨handle, stays, rfl⟩)
    · have eq := took.same_handle known rfl mem same.symm
      subst eq
      cases crash with
      | some reason =>
        exact .inr (.inr (took.added List.mem_cons_self (decide_eq_true rfl)))
      | none => exact goesOn (follows desired)
  · obtain failed | ⟨keys, rfl, mem⟩ := ran_failed ran failed
    · exact .inr (.inl failed)
    · obtain active | pending := follows candidateId mem desired failed
      · obtain ⟨handle, inTable, rfl⟩ := active_iff.mp active
        obtain stays | ⟨_, _, eq, _⟩ := ran_stays ran inTable
        · exact .inl (active_iff.mpr ⟨handle, stays, rfl⟩)
        · cases eq
      · exact goesOn pending
  · exact goesOn pending

/-! ## Every run -/

structure Converging (s : State) : Prop where
  known : Known s
  owned : Owned s
  snapshot : SnapshotDesired s
  dropping : Dropping s
  covered : Covered s

theorem converging_boot (config : Config) (discovered : List String) :
    Converging (boot config discovered) := by
  constructor
  · exact known_boot config discovered
  · intro handle mem
    cases mem
  · rintro desired enabled ⟨ops, mem, op, inOps, rfl⟩
    rw [List.mem_singleton.mp mem] at inOps
    cases List.mem_singleton.mp inOps
  · intro handle mem
    cases mem
  · intro candidateId _
    exact .inr (.inr ⟨_, List.mem_cons_self, _, List.mem_cons_self, rfl⟩)

theorem reload_converging (inv : Converging s) {config : Config}
    (hs : step s (.reload config) = some t) : Converging t := by
  have known := step_known inv.known hs
  have owned := step_owned inv.known inv.owned hs
  obtain ⟨idle, rfl⟩ := step_reload hs
  have starts {p : Op → Prop} (hp : p .startExtensions) : State.Pending { s with
      config := config, tasks := s.tasks ++ [[.startExtensions]] } p :=
    ⟨[.startExtensions], by simp, _, List.mem_cons_self, hp⟩
  refine ⟨known, owned, ?_, ?_, ?_⟩
  · intro desired enabled pending
    obtain ⟨ops, mem, op, inOps, rfl⟩ | new := reload_came pending rfl
    · exact absurd ⟨ops, mem, _, inOps, rfl⟩ idle
    · cases new
  · exact fun handle _ _ => .inl (starts rfl)
  · exact fun candidateId _ => .inr (.inr (starts rfl))

theorem step_converging (inv : Converging s) (follows : FollowsConfig s a)
    (hs : step s a = some t) : Converging t := by
  cases a with
  | reload config => exact reload_converging inv hs
  | changePath discovered => exact follows.elim
  | run i choice =>
    exact ⟨step_known inv.known hs, step_owned inv.known inv.owned hs, run_snapshot inv.snapshot hs,
      run_dropping inv.known inv.snapshot inv.dropping follows hs,
      run_covered inv.known inv.covered follows hs⟩

theorem Quiescent.watches (quiet : Quiescent s) {p : Op → Prop} (pending : s.Pending p) :
    ∃ handle, p (.watch handle) ∧ handle.generation ∉ s.drainStops := by
  obtain ⟨ops, inTasks, op, inOps, hp⟩ := pending
  have idle := quiet ops inTasks op inOps
  cases op with
  | watch handle => exact ⟨handle, hp, of_decide_eq_true idle⟩
  | _ => cases idle

theorem converged_of_quiescent (inv : Converging s) (quiet : Quiescent s) : Converged s := by
  constructor
  · intro handle mem
    by_contra undesired
    obtain pending | sent := inv.dropping handle mem undesired
    · obtain ⟨_, drops, _⟩ := quiet.watches pending
      cases drops
    · obtain ⟨other, owns, unsent⟩ := quiet.watches (inv.owned handle mem)
      rw [of_decide_eq_true owns] at unsent
      exact unsent sent
  · intro candidateId desired
    obtain active | failed | pending := inv.covered candidateId desired
    · exact .inl active
    · exact .inr failed
    · obtain ⟨_, covers, _⟩ := quiet.watches pending
      cases covers

/-- In every run whose sections follow the current configuration, the daemon has converged
whenever nothing is in progress. -/
theorem reload_converges (run : Reaches (fun s => ∃ config discovered, s = boot config discovered)
    step FollowsConfig s) (quiet : Quiescent s) : Converged s := by
  apply converged_of_quiescent _ quiet
  apply run.invariant Converging
  · rintro _ ⟨config, discovered, rfl⟩
    exact converging_boot config discovered
  · intro s a t _ inv follows hs
    exact step_converging inv follows hs

/-- The drain is over when the next reload enables the candidate again. -/
def drainThenEnable : List Action :=
  startThenRemove ++ [.run 1 .drainStop] ++ finish 1 6 ++ [.reload ⟨false, ["c"]⟩] ++ upToStart 3 ++
    [.run 3 (.registers ⟨"c", ["hook"], []⟩)] ++ finish 3 5

theorem reload_converges_enabled_again :
    ∃ s, exec (guarded FollowsConfig step) (boot ⟨false, ["c"]⟩ ["c"]) drainThenEnable = some s ∧
      s.desired = ["c"] ∧ Quiescent s ∧ Converged s := by
  have run : (exec (guarded FollowsConfig step) (boot ⟨false, ["c"]⟩ ["c"]) drainThenEnable).map
      (fun s => (s.desired, decide (Quiescent s))) = some (["c"], true) := by decide
  obtain ⟨s, hs, found⟩ := Option.map_eq_some_iff.mp run
  obtain ⟨desired, quiet⟩ := Prod.mk.inj found
  have quiet := of_decide_eq_true quiet
  exact ⟨s, hs, desired, quiet,
    reload_converges (reaches_of_exec _ (.start ⟨_, _, rfl⟩) hs) quiet⟩

/-- The reload enables the candidate again while it drains, and skips it as active; the
drain ends and nobody starts the candidate. -/
def enableDuringDrain : List Action :=
  startThenRemove ++ [.run 1 .drainStop, .reload ⟨false, ["c"]⟩] ++ upToStart 3 ++ finish 3 1 ++
    finish 1 6

/-- PATH is fixed and `autostart_all` stays off. -/
def Plain (_ : State) : Action → Prop
  | .reload config => config.autostartAll = false
  | .changePath _ => False
  | .run _ _ => True

instance (s : State) (a : Action) : Decidable (Plain s a) :=
  match a with
  | .reload config => inferInstanceAs (Decidable (config.autostartAll = false))
  | .changePath _ => isFalse id
  | .run _ _ => isTrue trivial

theorem drained_candidate_stays_down :
    ¬ ∀ s, Reaches (fun s => ∃ enabled discovered, s = boot ⟨false, enabled⟩ discovered) step
      Plain s → Quiescent s → Converged s := by
  intro claim
  have run : (exec (guarded Plain step) (boot ⟨false, ["c"]⟩ ["c"]) enableDuringDrain).map
      (fun s => (s.desired, s.extensionCandidateIsActive "c", s.isFailed "c",
        decide (Quiescent s))) = some (["c"], false, false, true) := by decide
  obtain ⟨s, hs, found⟩ := Option.map_eq_some_iff.mp run
  obtain ⟨desired, found⟩ := Prod.mk.inj found
  obtain ⟨inactive, found⟩ := Prod.mk.inj found
  obtain ⟨fine, quiet⟩ := Prod.mk.inj found
  have converged := claim s (reaches_of_exec _ (.start ⟨_, _, rfl⟩) hs) (of_decide_eq_true quiet)
  have wanted : "c" ∈ s.desired := by simp [desired]
  obtain active | failed := converged.all "c" wanted
  · rw [inactive] at active
    cases active
  · rw [fine] at failed
    cases failed

end Whdr.Daemon
