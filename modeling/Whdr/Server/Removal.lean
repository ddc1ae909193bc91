import Whdr.Server.DaemonSteps

/-! A removed extension leaves nothing behind, as long as it had nothing on record when it
was removed and its child ends by the drain. -/
namespace Whdr.Daemon

open Lifecycle (ExtHandle eraseAll get?_insertAll registerExtension_ok)
open Runs (Reaches exec guarded reaches_of_exec)

variable {s t u : State} {op : Op} {choice : Choice} {more : List Op} {a : Action} {i : Nat}

/-! ## The property and its condition -/

/-- How the route lookup of a request ends. -/
inductive Lookup
  | handle (handle : ExtHandle)
  | starting
  | notFound
  deriving DecidableEq, Repr

/-- `dispatch` up to the handle. -/
def State.dispatch (s : State) (routeKey : String) : Lookup :=
  match s.tables.routes.get? routeKey with
  | some id =>
    match s.tables.extensions.get? id with
    | some handle => .handle handle
    | none => .starting
  | none =>
    if s.config.enabled.any (fun id => id == routeKey) ||
        (s.tables.unavailableRoutes.get? routeKey).isSome || s.isFailed routeKey then .starting
    else .notFound

/-- The candidate and every path it has ever claimed. -/
def State.keys (s : State) (candidateId : String) : List String :=
  candidateId :: (s.registered.filter fun handle => handle.candidateId = candidateId).flatMap
    ExtHandle.paths

/-- Another active or enabled extension claims the key. -/
def State.Claimed (s : State) (candidateId key : String) : Prop :=
  (∃ handle ∈ s.tables.extensions.values, handle.candidateId ≠ candidateId ∧ key ∈ keysOf handle) ∨
    ∃ other ∈ s.config.enabled, other ≠ candidateId ∧ key ∈ s.keys other

/-- The section belongs to a task of the candidate. -/
def Op.concerns (candidateId : String) : Op → Bool
  | .stopLoop left => left.any fun handle => handle.candidateId = candidateId
  | .wantedLoop left _ | .startLoop left => candidateId ∈ left
  | .stopRemoved desired enabled => candidateId ∈ desired ++ enabled
  | .dropRoutes handle _ | .dropPrefixes handle _ | .clearUnrouted handle _
  | .sendDrainStop handle | .superviseExtension handle | .watch handle | .drain handle
  | .removeGeneration handle _ => handle.candidateId = candidateId
  | .startExtension other | .markFailed _ other _ | .markUnavailable _ other _ _
  | .respawnFailed other _ | .respawnConfig other _ | .nextRespawnDelay other | .sleep other
  | .respawnActive other => other = candidateId
  | .startExtensions | .clearFailed _ | .clearUnavailable _ => false

/-- Once a candidate is out of the configuration and its tasks are over, no record of it is
left, and its keys are not found. -/
def NothingLeft (s : State) : Prop :=
  ∀ candidateId, candidateId ∉ s.config.enabled →
    (¬ s.Pending fun op => op.concerns candidateId = true) →
    s.isFailed candidateId = false ∧ ∀ key ∈ s.keys candidateId, ¬ s.Claimed candidateId key →
      s.tables.routes.get? key = none ∧ s.tables.unavailableRoutes.get? key = none ∧
        s.dispatch key = .notFound

/-- What is recorded after an unroute. -/
def After.marks (handle : ExtHandle) : After → List String
  | .crashed candidateId _ => [handle.candidateId, candidateId]
  | _ => []

/-- The candidates of which the task may still record a failure. -/
def Op.marks : Op → List String
  | .stopRemoved desired enabled => desired ++ enabled
  | .wantedLoop left _ | .startLoop left => left
  | .dropRoutes handle after | .dropPrefixes handle after | .clearUnrouted handle after =>
    after.marks handle
  | .removeGeneration handle (some _) => [handle.candidateId]
  | .startExtension other | .markFailed _ other _ | .markUnavailable _ other _ _
  | .respawnFailed other _ | .respawnConfig other _ | .nextRespawnDelay other | .sleep other
  | .respawnActive other => [other]
  | _ => []

/-- Failures on record or under way when a configuration comes in are of candidates that it
enables, and a child whose candidate is not enabled ends by its drain. -/
def NothingOnRecord (s : State) : Action → Prop
  | .reload config => config.autostartAll = false ∧
      (∀ key ∈ s.tables.failedExtensions.keys, key ∈ config.enabled) ∧
      (∀ key ∈ s.tables.unavailableRoutes.keys, ∃ other ∈ config.enabled, key ∈ s.keys other) ∧
      ¬ s.Pending fun op => ∃ candidateId ∈ op.marks, candidateId ∉ config.enabled
  | .changePath _ => True
  | .run i choice =>
    match s.next i, choice with
    | some (.watch handle), .exits _ => handle.candidateId ∈ s.config.enabled
    | _, _ => True

instance (s : State) : (a : Action) → Decidable (NothingOnRecord s a)
  | .reload _ => by
    dsimp only [NothingOnRecord]
    infer_instance
  | .changePath _ => isTrue trivial
  | .run i choice => by
    dsimp only [NothingOnRecord]
    rcases s.next i with _ | op
    · exact isTrue trivial
    · rcases op with _ | _ <;> rcases choice with _ | _ <;> infer_instance

/-! ## Records -/

theorem desired_enabled (plain : s.config.autostartAll = false) {candidateId : String}
    (mem : candidateId ∈ s.desired) : candidateId ∈ s.config.enabled := by
  simp only [State.desired, plain, Bool.false_eq_true, if_false, List.mem_dedup,
    List.mem_filter] at mem
  exact mem.1

theorem ran_config (ran : Ran s op choice u more) : u.config = s.config := by
  cases ran <;> rfl

/-- The candidates a section goes on to mark: its own, the enabled ones of a reload, and
the one of a child that has ended. -/
theorem reads_marks (reads : Reads s op choice more) (plain : s.config.autostartAll = false)
    {candidateId : String} (mem : candidateId ∈ more.flatMap Op.marks) :
    candidateId ∈ op.marks ∨ candidateId ∈ s.config.enabled ∨
      ∃ handle reason, op = .watch handle ∧ choice = .exits reason ∧
        candidateId = handle.candidateId := by
  cases reads with
  | startExtensions =>
    simp only [List.flatMap_cons, Op.marks, List.flatMap_nil, List.append_nil,
      List.mem_append] at mem
    obtain desired | enabled := mem
    · exact .inr (.inl (desired_enabled plain desired))
    · exact .inr (.inl enabled)
  | stopRemoved =>
    simp only [List.flatMap_cons, Op.marks, List.flatMap_nil, List.append_nil, List.nil_append,
      List.mem_append] at mem
    exact .inl (List.mem_append.mpr mem.symm)
  | stopNext => simp [Op.marks, After.marks] at mem
  | wantedMissing => exact .inl (by simpa [recordFailure, Op.marks] using mem)
  | wantedNext => exact .inl (List.mem_cons_of_mem _ (by simpa [Op.marks] using mem))
  | startSkips => exact .inl (List.mem_of_mem_eraseIdx (by simpa [Op.marks] using mem))
  | startNext next =>
    simp only [List.flatMap_cons, Op.marks, List.flatMap_nil, List.append_nil,
      List.singleton_append, List.mem_cons] at mem
    obtain rfl | mem := mem
    · exact .inl (List.mem_of_getElem? next)
    · exact .inl (List.mem_of_mem_eraseIdx mem)
  | exits handle reason =>
    exact .inr (.inr ⟨handle, reason, rfl, rfl, by simpa [Op.marks] using mem⟩)
  | startFails | respawnNotFailed | respawnEarly | respawnLate | crashloop | delay | wakes
  | respawns =>
    left
    simpa [recordFailure, Op.marks] using mem
  | _ => simp [Op.marks] at mem

theorem ran_marks (known : Known s) (took : Took s t op more) (ran : Ran s op choice u more)
    (plain : s.config.autostartAll = false) {candidateId : String}
    (mem : candidateId ∈ more.flatMap Op.marks) :
    candidateId ∈ op.marks ∨ candidateId ∈ s.config.enabled ∨
      ∃ handle reason, op = .watch handle ∧ choice = .exits reason ∧
        candidateId = handle.candidateId := by
  cases ran with
  | reads reads => exact reads_marks reads plain mem
  | clearUnrouted handle after =>
    left
    cases after with
    | crashed => simpa [After.next, Op.marks, After.marks] using mem
    | _ => simp [After.next, Op.marks] at mem
  | @removes handle found crash present same =>
    left
    have inTable : found ∈ s.tables.extensions.values := (OrdMap.mem_values_iff _ _).mpr ⟨_, present⟩
    have eq := took.same_handle known rfl inTable same.symm
    subst eq
    cases crash with
    | some reason => simpa [afterCleanup, Op.marks, After.marks] using mem
    | none => simp [afterCleanup, Op.marks, After.marks] at mem
  | dropRoutes | dropPrefixes => exact .inl (by simpa [Op.marks] using mem)
  | _ => simp [Op.marks] at mem

/-- Only enabled candidates are still to be marked. -/
def MarksEnabled (s : State) : Prop :=
  ∀ candidateId, s.Pending (fun op => candidateId ∈ op.marks) → candidateId ∈ s.config.enabled

theorem run_marks (known : Known s) (plain : s.config.autostartAll = false)
    (marks : MarksEnabled s) (ok : NothingOnRecord s (.run i choice))
    (hs : step s (.run i choice) = some t) : MarksEnabled t := by
  obtain ⟨op, u, more, tasks, next, ran, took, rfl⟩ := step_cases hs
  simp only [NothingOnRecord, next] at ok
  intro candidateId pending
  change candidateId ∈ u.config.enabled
  rw [ran_config ran]
  obtain old | ⟨x, mem, marked⟩ | ⟨handle, _, marked⟩ := took.came pending
  · exact marks candidateId old
  · obtain own | enabled | ⟨handle, reason, rfl, rfl, rfl⟩ :=
      ran_marks known took ran plain (List.mem_flatMap.mpr ⟨x, mem, marked⟩)
    · exact marks candidateId (took.pending_of_head own)
    · exact enabled
    · exact ok
  · cases marked

theorem keysOf_keys {handle : ExtHandle} {key : String}
    (registered : s.registered[handle.generation]? = some handle) (mem : key ∈ keysOf handle) :
    key ∈ s.keys handle.candidateId := by
  obtain rfl | path := List.mem_cons.mp mem
  · exact List.mem_cons_self
  · apply List.mem_cons_of_mem
    refine List.mem_flatMap.mpr ⟨handle, ?_, path⟩
    exact List.mem_filter.mpr ⟨List.mem_of_getElem? registered, decide_eq_true rfl⟩

theorem keys_stay (ran : Ran s op choice u more) {candidateId key : String}
    (mem : key ∈ s.keys candidateId) : key ∈ u.keys candidateId := by
  obtain eq | ⟨handle, eq⟩ := ran_registered ran
  · unfold State.keys
    rw [eq]
    exact mem
  · unfold State.keys
    rw [eq, List.filter_append, List.flatMap_append, ← List.cons_append]
    exact List.mem_append_left _ mem

/-- The keys still to be marked are keys of the candidate. -/
def MarksKeys (s : State) : Prop :=
  ∀ author candidateId keys reason,
    s.Pending (· = .markUnavailable author candidateId keys reason) →
      ∀ key ∈ keys, key ∈ s.keys candidateId

theorem run_marksKeys (known : Known s) (marked : MarksKeys s)
    (hs : step s (.run i choice) = some t) : MarksKeys t := by
  obtain ⟨op, u, more, tasks, _, ran, took, rfl⟩ := step_cases hs
  intro author candidateId keys reason pending key mem
  change key ∈ u.keys candidateId
  obtain old | ⟨x, inMore, rfl⟩ | ⟨handle, _, eq⟩ := took.came pending
  · exact keys_stay ran (marked author candidateId keys reason old key mem)
  · cases ran with
    | reads reads =>
      have own : keys = [candidateId] := by
        cases reads <;> simp [recordFailure] at inMore <;> grind
      rw [own] at mem
      rw [List.mem_singleton.mp mem]
      exact List.mem_cons_self
    | clearUnrouted handle after =>
      cases after with
      | crashed other reason' =>
        simp only [After.next, List.mem_cons, List.not_mem_nil, or_false, reduceCtorEq,
          Op.markUnavailable.injEq] at inMore
        obtain ⟨_, rfl, rfl, _⟩ := inMore
        have registered := known.tasks handle (took.pending_of_head (List.mem_singleton.mpr rfl))
        exact keysOf_keys registered mem
      | _ => simp [After.next] at inMore
    | _ => simp at inMore
  · cases eq

/-- Every failure on record is one of an enabled candidate. -/
structure RecordsEnabled (s : State) : Prop where
  failed : ∀ key, s.isFailed key = true → key ∈ s.config.enabled
  unavailable : ∀ key, (s.tables.unavailableRoutes.get? key).isSome = true →
    ∃ other ∈ s.config.enabled, key ∈ s.keys other

theorem isSome_eraseAll {m : OrdMap String String} {keys : List String} {key : String}
    (h : ((eraseAll m keys).get? key).isSome = true) : (m.get? key).isSome = true := by
  rw [get?_eraseAll] at h
  split at h
  · cases h
  · exact h

theorem isSome_recordUnavailable {m : OrdMap String String} {author : Author}
    {keys : List String} {reason key : String}
    (h : ((recordUnavailable m author keys reason).get? key).isSome = true) :
    key ∈ keys ∨ (m.get? key).isSome = true := by
  unfold recordUnavailable at h
  split at h
  · rw [get?_insertAll] at h
    split at h
    · rename_i mem
      exact .inl (List.mem_of_mem_filter mem)
    · exact .inr h
  · rw [get?_insertAll] at h
    split at h
    · rename_i mem
      exact .inl mem
    · exact .inr h

theorem ran_failedRecord (ran : Ran s op choice u more) {key : String}
    (failed : u.isFailed key = true) :
    s.isFailed key = true ∨ ∃ author reason, op = .markFailed author key reason := by
  cases ran with
  | registers ok =>
    obtain ⟨_, _, rfl⟩ := registerExtension_ok ok
    exact .inl failed
  | clearFailed keys => exact .inl (isSome_eraseAll failed)
  | markFailed author other reason =>
    by_cases eq : key = other
    · exact .inr ⟨author, reason, by rw [eq]⟩
    · left
      unfold State.isFailed at failed ⊢
      simp only [Lifecycle.Op.run, OrdMap.get?_insert, if_neg eq] at failed
      exact failed
  | _ => exact .inl failed

theorem ran_unavailableRecord (ran : Ran s op choice u more) {key : String}
    (record : (u.tables.unavailableRoutes.get? key).isSome = true) :
    (s.tables.unavailableRoutes.get? key).isSome = true ∨
      ∃ author candidateId keys reason, op = .markUnavailable author candidateId keys reason ∧
        key ∈ keys := by
  cases ran with
  | registers ok =>
    obtain ⟨_, _, rfl⟩ := registerExtension_ok ok
    exact .inl record
  | clearUnrouted | clearUnavailable => exact .inl (isSome_eraseAll record)
  | markUnavailable author candidateId keys reason =>
    obtain mem | old := isSome_recordUnavailable record
    · exact .inr ⟨author, candidateId, keys, reason, rfl, mem⟩
    · exact .inl old
  | _ => exact .inl record

theorem run_records (marks : MarksEnabled s) (marked : MarksKeys s) (records : RecordsEnabled s)
    (hs : step s (.run i choice) = some t) : RecordsEnabled t := by
  obtain ⟨op, u, more, tasks, _, ran, took, rfl⟩ := step_cases hs
  constructor
  · intro key failed
    change key ∈ u.config.enabled
    rw [ran_config ran]
    obtain old | ⟨author, reason, rfl⟩ := ran_failedRecord ran failed
    · exact records.failed key old
    · exact marks key (took.pending_of_head (List.mem_singleton.mpr rfl))
  · intro key record
    change ∃ other ∈ u.config.enabled, key ∈ u.keys other
    rw [ran_config ran]
    obtain old | ⟨author, candidateId, keys, reason, rfl, mem⟩ := ran_unavailableRecord ran record
    · obtain ⟨other, enabled, mem⟩ := records.unavailable key old
      exact ⟨other, enabled, keys_stay ran mem⟩
    · have enabled := marks candidateId (took.pending_of_head (List.mem_singleton.mpr rfl))
      exact ⟨candidateId, enabled,
        keys_stay ran (marked author candidateId keys reason took.head key mem)⟩

/-! ## Rows -/

theorem ran_routes (ran : Ran s op choice u more) {key owner : String}
    (row : u.tables.routes.get? key = some owner) :
    (s.tables.routes.get? key = some owner ∧
      ∀ handle after, op = .dropRoutes handle after → handle.id ≠ owner) ∨
    (s.tables.extensions.get? owner = none ∧
      ∃ handle ∈ u.tables.extensions.values, handle.id = owner ∧ key ∈ handle.paths) := by
  cases ran with
  | @registers candidateId reg tables ok =>
    obtain ⟨absent, _, rfl⟩ := registerExtension_ok ok
    rw [get?_insertAll] at row
    split at row
    · rename_i path
      cases row
      refine .inr ⟨absent, _, (OrdMap.mem_values_iff _ _).mpr ⟨reg.id, ?_⟩, rfl, path⟩
      rw [OrdMap.get?_insert]
      exact if_pos rfl
    · exact .inl ⟨row, nofun⟩
  | dropRoutes handle after =>
    obtain ⟨old, kept⟩ := (OrdMap.get?_retain_eq_some _ _ _ _).mp row
    refine .inl ⟨old, ?_⟩
    rintro _ _ ⟨rfl, rfl⟩ rfl
    simp at kept
  | reads reads =>
    refine .inl ⟨row, ?_⟩
    rintro handle after rfl
    cases reads
  | _ => exact .inl ⟨row, nofun⟩

/-- The generation has been unrouted by a reload, and its drain is under way. -/
def Op.unrouted (generation : Uuid) : Op → Bool
  | .dropPrefixes handle .drainStop | .clearUnrouted handle .drainStop | .sendDrainStop handle
  | .drain handle | .removeGeneration handle none => handle.generation = generation
  | _ => false

/-- No row leads to a handle that a reload has unrouted. -/
structure Unrouted (s : State) : Prop where
  sent : ∀ generation ∈ s.drainStops, generation < s.registered.length
  rows : ∀ handle ∈ s.tables.extensions.values,
    (s.Pending fun op => op.unrouted handle.generation = true) ∨
      handle.generation ∈ s.drainStops → ∀ key, s.tables.routes.get? key ≠ some handle.id

theorem unrouted_handles {generation : Uuid} (h : op.unrouted generation = true) :
    ∃ handle ∈ op.handles, handle.generation = generation := by
  cases op with
  | dropPrefixes handle after | clearUnrouted handle after =>
    cases after with
    | drainStop => exact ⟨handle, List.mem_singleton.mpr rfl, of_decide_eq_true h⟩
    | _ => cases h
  | removeGeneration handle crash =>
    cases crash with
    | none => exact ⟨handle, List.mem_singleton.mpr rfl, of_decide_eq_true h⟩
    | some => cases h
  | sendDrainStop handle | drain handle =>
    exact ⟨handle, List.mem_singleton.mpr rfl, of_decide_eq_true h⟩
  | _ => cases h

/-- A drain comes from the unroute of the reload or from the command channel. -/
theorem unrouted_came (ran : Ran s op choice u more) {generation : Uuid}
    (h : (more.any fun x => x.unrouted generation) = true) :
    op.unrouted generation = true ∨ generation ∈ s.drainStops ∨
      ∃ handle, op = .dropRoutes handle .drainStop ∧ handle.generation = generation := by
  cases ran with
  | reads reads =>
    left
    cases reads with
    | drained => simpa [Op.unrouted] using h
    | _ => simp [recordFailure, Op.unrouted] at h
  | dropRoutes handle after =>
    cases after with
    | drainStop => exact .inr (.inr ⟨handle, rfl, by simpa [Op.unrouted] using h⟩)
    | _ => simp [Op.unrouted] at h
  | dropPrefixes handle after =>
    cases after with
    | drainStop => exact .inl (by simpa [Op.unrouted] using h)
    | _ => simp [Op.unrouted] at h
  | clearUnrouted handle after =>
    cases after with
    | drainStop => exact .inl (by simpa [After.next, Op.unrouted] using h)
    | _ => simp [After.next, Op.unrouted] at h
  | @takesDrainStop handle sent =>
    have eq : handle.generation = generation := by simpa [Op.unrouted] using h
    exact .inr (.inl (eq ▸ sent))
  | _ => simp [Op.unrouted] at h

theorem ran_drainStops (ran : Ran s op choice u more) {generation : Uuid}
    (sent : generation ∈ u.drainStops) : generation ∈ s.drainStops ∨
      ∃ handle, op = .sendDrainStop handle ∧ handle.generation = generation := by
  cases ran with
  | sendDrainStop handle =>
    obtain rfl | old := List.mem_cons.mp sent
    · exact .inr ⟨handle, rfl, rfl⟩
    · exact .inl old
  | takesDrainStop => exact .inl (List.mem_of_mem_filter sent)
  | _ => exact .inl sent

/-- The drain of an old handle was under way, or its unroute ends here. -/
theorem unrouted_before (took : Took s t op more) (ran : Ran s op choice u more)
    (sent : t.drainStops = u.drainStops) {generation : Uuid}
    (h : (t.Pending fun op => op.unrouted generation = true) ∨ generation ∈ t.drainStops) :
    ((s.Pending fun op => op.unrouted generation = true) ∨ generation ∈ s.drainStops) ∨
      ∃ handle, op = .dropRoutes handle .drainStop ∧ handle.generation = generation := by
  obtain pending | queued := h
  · obtain old | ⟨x, mem, new⟩ | ⟨_, _, watch⟩ := took.came pending
    · exact .inl (.inl old)
    · obtain own | queued | unroute := unrouted_came ran (List.any_eq_true.mpr ⟨x, mem, new⟩)
      · exact .inl (.inl (took.pending_of_head own))
      · exact .inl (.inr queued)
      · exact .inr unroute
    · cases watch
  · rw [sent] at queued
    obtain old | ⟨handle, rfl, same⟩ := ran_drainStops ran queued
    · exact .inl (.inr old)
    · exact .inl (.inl (took.pending_of_head (decide_eq_true same)))

theorem run_unrouted (known : Known s) (unrouted : Unrouted s)
    (hs : step s (.run i choice) = some t) : Unrouted t := by
  obtain ⟨op, u, more, tasks, _, ran, took, rfl⟩ := step_cases hs
  have grows : s.registered.length ≤ u.registered.length := by
    obtain eq | ⟨_, eq⟩ := ran_registered ran
    · rw [eq]
    · simp [eq]
  have known_lt {handle : ExtHandle} (pending : s.Pending fun op => handle ∈ op.handles) :
      handle.generation < s.registered.length := by
    obtain ⟨bound, _⟩ := List.getElem?_eq_some_iff.mp (known.tasks handle pending)
    exact bound
  constructor
  · intro generation sent
    obtain old | ⟨handle, rfl, rfl⟩ := ran_drainStops ran sent
    · exact Nat.lt_of_lt_of_le (unrouted.sent generation old) grows
    · exact Nat.lt_of_lt_of_le
        (known_lt (took.pending_of_head (List.mem_singleton.mpr rfl))) grows
  · intro handle mem drains key row
    have before := unrouted_before took ran rfl drains
    obtain old | ⟨_, _, rfl, _, rfl, _⟩ := ran_extensions ran mem
    · obtain ⟨inRoutes, drops⟩ | ⟨absent, _⟩ := ran_routes ran row
      · obtain drains | ⟨other, rfl, same⟩ := before
        · exact unrouted.rows handle old drains key inRoutes
        · have eq := took.same_handle known rfl old same
          subst eq
          exact drops _ _ rfl rfl
      · rw [known.get? old] at absent
        cases absent
    · -- The generation of a newcomer is in no task yet.
      obtain (pending | sent) | ⟨_, eq, _⟩ := before
      · obtain ⟨ops, inTasks, op, inOps, drain⟩ := pending
        obtain ⟨other, about, same⟩ := unrouted_handles drain
        have bound := known_lt ⟨ops, inTasks, op, inOps, about⟩
        rw [same] at bound
        exact Nat.lt_irrefl _ bound
      · exact Nat.lt_irrefl _ (unrouted.sent _ sent)
      · cases eq

/-- A row leads to a handle of the table that claims it, or to one whose cleanup after a
crash has still to drop it. -/
def RowsOwned (s : State) : Prop :=
  ∀ key owner, s.tables.routes.get? key = some owner →
    (∃ handle ∈ s.tables.extensions.values, handle.id = owner ∧ key ∈ handle.paths) ∨
      ∃ handle candidateId reason, s.Pending (· = .dropRoutes handle (.crashed candidateId reason)) ∧
        handle.id = owner ∧ key ∈ handle.paths

theorem run_rows (unrouted : Unrouted s) (owned : RowsOwned s)
    (hs : step s (.run i choice) = some t) : RowsOwned t := by
  obtain ⟨op, u, more, tasks, _, ran, took, rfl⟩ := step_cases hs
  intro key owner row
  obtain ⟨inRoutes, drops⟩ | ⟨_, handle, mem, claims⟩ := ran_routes ran row
  · obtain ⟨handle, mem, rfl, path⟩ | ⟨handle, candidateId, reason, pending, rfl, path⟩ :=
      owned key owner inRoutes
    · obtain stays | ⟨other, crash, rfl, _, same, rfl⟩ := ran_stays ran mem
      · exact .inl ⟨handle, stays, rfl, path⟩
      · cases crash with
        | some reason =>
          exact .inr ⟨handle, other.candidateId, reason, took.added List.mem_cons_self rfl, rfl, path⟩
        | none =>
          have drains := took.pending_of_head (p := fun op => op.unrouted handle.generation = true)
            (decide_eq_true same.symm)
          exact absurd inRoutes (unrouted.rows handle mem (.inl drains) key)
    · obtain own | pending := took.kept pending
      · exact absurd rfl (drops handle _ own)
      · exact .inr ⟨handle, candidateId, reason, pending, rfl, path⟩
  · exact .inl ⟨handle, mem, claims⟩

/-! ## Every run -/

structure Clean (s : State) : Prop where
  known : Known s
  owned : Owned s
  plain : s.config.autostartAll = false
  marks : MarksEnabled s
  marksKeys : MarksKeys s
  records : RecordsEnabled s
  unrouted : Unrouted s
  rows : RowsOwned s

theorem clean_boot (enabled discovered : List String) :
    Clean (boot ⟨false, enabled⟩ discovered) := by
  have only {p : Op → Prop} (pending : (boot ⟨false, enabled⟩ discovered).Pending p) :
      p .startExtensions := by
    obtain ⟨ops, mem, op, inOps, hp⟩ := pending
    rw [List.mem_singleton.mp mem] at inOps
    rw [List.mem_singleton.mp inOps] at hp
    exact hp
  constructor
  · exact known_boot _ _
  · intro handle mem
    cases mem
  · rfl
  · intro candidateId pending
    cases only pending
  · intro author candidateId keys reason pending
    cases only pending
  · constructor
    · intro key failed
      cases failed
    · intro key record
      cases record
  · constructor
    · intro generation sent
      cases sent
    · intro handle mem
      cases mem
  · intro key owner row
    cases row

theorem reload_clean (inv : Clean s) {config : Config} (ok : NothingOnRecord s (.reload config))
    (hs : step s (.reload config) = some t) : Clean t := by
  have known := step_known inv.known hs
  have owned := step_owned inv.known inv.owned hs
  obtain ⟨_, rfl⟩ := step_reload hs
  obtain ⟨plain, failed, unavailable, pending⟩ := ok
  have old {p : Op → Prop} (later : State.Pending { s with
      config := config, tasks := s.tasks ++ [[.startExtensions]] } p)
      (other : ¬ p .startExtensions) : s.Pending p := by
    obtain old | new := reload_came later rfl
    · exact old
    · exact absurd new other
  refine ⟨known, owned, plain, ?_, ?_, ⟨?_, ?_⟩, ⟨inv.unrouted.sent, ?_⟩, ?_⟩
  · intro candidateId later
    by_contra dropped
    obtain ⟨ops, inTasks, op, inOps, marks⟩ := old later nofun
    exact pending ⟨ops, inTasks, op, inOps, candidateId, marks, dropped⟩
  · intro author candidateId keys reason later
    exact inv.marksKeys author candidateId keys reason (old later nofun)
  · intro key isFailed
    exact failed key ((OrdMap.mem_keys_iff _ _).mpr isFailed)
  · intro key record
    exact unavailable key ((OrdMap.mem_keys_iff _ _).mpr record)
  · rintro handle mem (drains | sent)
    · exact inv.unrouted.rows handle mem (.inl (old drains nofun))
    · exact inv.unrouted.rows handle mem (.inr sent)
  · intro key owner row
    obtain table | ⟨handle, candidateId, reason, cleanup, claims⟩ := inv.rows key owner row
    · exact .inl table
    · exact .inr ⟨handle, candidateId, reason, pending_append cleanup _ rfl, claims⟩

theorem step_clean (inv : Clean s) (ok : NothingOnRecord s a) (hs : step s a = some t) :
    Clean t := by
  cases a with
  | reload config => exact reload_clean inv ok hs
  | changePath discovered =>
    cases hs
    exact ⟨⟨inv.known.keyed, inv.known.table, inv.known.tasks⟩, inv.owned, inv.plain, inv.marks,
      inv.marksKeys, ⟨inv.records.failed, inv.records.unavailable⟩,
      ⟨inv.unrouted.sent, inv.unrouted.rows⟩, inv.rows⟩
  | run i choice =>
    have plain : t.config.autostartAll = false := by
      obtain ⟨op, u, more, tasks, _, ran, _, rfl⟩ := step_cases hs
      change u.config.autostartAll = false
      rw [ran_config ran]
      exact inv.plain
    exact ⟨step_known inv.known hs, step_owned inv.known inv.owned hs, plain,
      run_marks inv.known inv.plain inv.marks ok hs, run_marksKeys inv.known inv.marksKeys hs,
      run_records inv.marks inv.marksKeys inv.records hs, run_unrouted inv.known inv.unrouted hs,
      run_rows inv.unrouted inv.rows hs⟩

/-- A candidate without tasks is not in the table. -/
theorem not_active (inv : Clean s) {candidateId : String}
    (finished : ¬ s.Pending fun op => op.concerns candidateId = true) {handle : ExtHandle}
    (mem : handle ∈ s.tables.extensions.values) : handle.candidateId ≠ candidateId := by
  rintro rfl
  obtain ⟨ops, inTasks, op, inOps, owns⟩ := inv.owned handle mem
  have eq {other : ExtHandle} (about : other ∈ op.handles)
      (same : other.generation = handle.generation) : other = handle :=
    inv.known.eq mem ⟨ops, inTasks, op, inOps, about⟩ same
  refine finished ⟨ops, inTasks, op, inOps, ?_⟩
  cases op with
  | superviseExtension other | watch other | drain other | removeGeneration other crash =>
    have same := eq (List.mem_singleton.mpr rfl) (of_decide_eq_true owns)
    exact decide_eq_true (by rw [same])
  | _ => cases owns

theorem nothingLeft_of_clean (inv : Clean s) : NothingLeft s := by
  intro candidateId dropped finished
  have other {name : String} (enabled : name ∈ s.config.enabled) : name ≠ candidateId := by
    rintro rfl
    exact dropped enabled
  have failed (key : String) (free : ¬ s.Claimed candidateId key) : s.isFailed key = false := by
    cases isFailed : s.isFailed key with
    | false => rfl
    | true =>
      have enabled := inv.records.failed key isFailed
      exact absurd (.inr ⟨key, enabled, other enabled, List.mem_cons_self⟩) free
  have unavailable (key : String) (free : ¬ s.Claimed candidateId key) :
      s.tables.unavailableRoutes.get? key = none := by
    by_contra record
    obtain ⟨name, enabled, mem⟩ :=
      inv.records.unavailable key (Option.isSome_iff_ne_none.mpr record)
    exact free (.inr ⟨name, enabled, other enabled, mem⟩)
  have routes (key : String) (free : ¬ s.Claimed candidateId key) :
      s.tables.routes.get? key = none := by
    by_contra row
    obtain ⟨owner, row⟩ := Option.ne_none_iff_exists'.mp row
    obtain ⟨handle, mem, _, path⟩ | ⟨handle, name, reason, cleanup, _, path⟩ :=
      inv.rows key owner row
    · exact free (.inl ⟨handle, mem, not_active inv finished mem, List.mem_cons_of_mem _ path⟩)
    · obtain ⟨ops, inTasks, _, inOps, rfl⟩ := cleanup
      have enabled := inv.marks handle.candidateId ⟨ops, inTasks, _, inOps, List.mem_cons_self⟩
      have registered := inv.known.tasks handle
        ⟨ops, inTasks, _, inOps, List.mem_singleton.mpr rfl⟩
      exact free (.inr ⟨handle.candidateId, enabled, other enabled,
        keysOf_keys registered (List.mem_cons_of_mem _ path)⟩)
  constructor
  · cases isFailed : s.isFailed candidateId with
    | false => rfl
    | true => exact absurd (inv.records.failed candidateId isFailed) dropped
  · intro key _ free
    have disabled : (s.config.enabled.any fun id => id == key) = false := by
      rw [List.any_eq_false]
      intro id enabled same
      rw [beq_iff_eq] at same
      subst same
      exact free (.inr ⟨id, enabled, other enabled, List.mem_cons_self⟩)
    refine ⟨routes key free, unavailable key free, ?_⟩
    simp [State.dispatch, routes key free, unavailable key free, failed key free, disabled]

/-- In every run in which a configuration comes in only while all failures on record and
under way are of candidates it enables, and the child of a removed candidate ends by its
drain, a removed candidate leaves nothing behind. -/
theorem removed_leaves_nothing
    (run : Reaches (fun s => ∃ enabled discovered, s = boot ⟨false, enabled⟩ discovered) step
      NothingOnRecord s) : NothingLeft s := by
  apply nothingLeft_of_clean
  apply run.invariant Clean
  · rintro _ ⟨enabled, discovered, rfl⟩
    exact clean_boot enabled discovered
  · intro s a t _ inv ok hs
    exact step_clean inv ok hs

theorem removed_leaves_nothing_drained :
    ∃ s, exec (guarded NothingOnRecord step) (boot ⟨false, ["c"]⟩ ["c"])
        (startThenRemove ++ [.run 1 .drainStop] ++ finish 1 6) = some s ∧
      s.dispatch "hook" = .notFound ∧ NothingLeft s := by
  have run : (exec (guarded NothingOnRecord step) (boot ⟨false, ["c"]⟩ ["c"])
      (startThenRemove ++ [.run 1 .drainStop] ++ finish 1 6)).map
      (fun s => s.dispatch "hook") = some .notFound := by decide
  obtain ⟨s, hs, missing⟩ := Option.map_eq_some_iff.mp run
  exact ⟨s, hs, missing, removed_leaves_nothing (reaches_of_exec _ (.start ⟨_, _, rfl⟩) hs)⟩

/-- `autostart_all` stays off. -/
def AutostartOff (_ : State) : Action → Prop
  | .reload config => config.autostartAll = false
  | _ => True

instance (s : State) (a : Action) : Decidable (AutostartOff s a) :=
  match a with
  | .reload config => inferInstanceAs (Decidable (config.autostartAll = false))
  | .changePath _ | .run _ _ => isTrue trivial

theorem left_of_exec (actions : List Action)
    (run : (exec (guarded AutostartOff step) (boot ⟨false, ["c"]⟩ ["c"]) actions).map
      (fun s => (s.config.enabled, decide (s.Pending fun op => op.concerns "c" = true),
        s.tables.extensions.values, s.dispatch "c")) = some ([], false, [], .starting)) :
    ¬ ∀ s, Reaches (fun s => ∃ enabled discovered, s = boot ⟨false, enabled⟩ discovered) step
      AutostartOff s → NothingLeft s := by
  intro claim
  obtain ⟨s, hs, found⟩ := Option.map_eq_some_iff.mp run
  obtain ⟨enabled, found⟩ := Prod.mk.inj found
  obtain ⟨finished, found⟩ := Prod.mk.inj found
  obtain ⟨table, starting⟩ := Prod.mk.inj found
  have left := claim s (reaches_of_exec _ (.start ⟨_, _, rfl⟩) hs) "c" (by simp [enabled])
    (of_decide_eq_false finished)
  have missing := (left.2 "c" List.mem_cons_self (by simp [State.Claimed, enabled, table])).2.2
  rw [starting] at missing
  cases missing

/-- The start of the candidate has failed when a reload removes it: the reload looks for
removed extensions in the table only, and the record stays. -/
theorem removed_candidate_stays_failed :
    ¬ ∀ s, Reaches (fun s => ∃ enabled discovered, s = boot ⟨false, enabled⟩ discovered) step
      AutostartOff s → NothingLeft s :=
  left_of_exec (upToStart 0 ++ [.run 0 (.fails "no register line")] ++ finish 0 3 ++
    [.reload ⟨false, []⟩] ++ finish 1 5) (by decide)

-- A healthy one leaves its keys unavailable if its child ends before the `DrainStop` is taken.
example : ¬ ∀ s, Reaches (fun s => ∃ enabled discovered, s = boot ⟨false, enabled⟩ discovered)
    step AutostartOff s → NothingLeft s :=
  left_of_exec (startThenRemove ++ [.run 1 (.exits "exited")] ++ finish 1 7) (by decide)

end Whdr.Daemon
