import Whdr.Server.Daemon

/-! One step of the daemon: what each section does, what stays pending across it, and
which handles and generations belong together. -/
namespace Whdr.Daemon

open Lifecycle (ExtHandle Registration newHandle registerExtension eraseAll registerExtension_ok)

variable {s t u : State} {op : Op} {choice : Choice} {more rest : List Op} {i : Nat}

/-- The sections that only read, with what they go on with. -/
inductive Reads (s : State) : Op → Choice → List Op → Prop
  | startExtensions : Reads s .startExtensions .go [.stopRemoved s.desired s.config.enabled]
  | stopRemoved (desired enabled : List String) :
      Reads s (.stopRemoved desired enabled) .go
        [.stopLoop (s.tables.extensions.values.filter fun handle =>
          handle.candidateId ∉ desired), .wantedLoop enabled desired, .startLoop desired]
  | stopNext {left : List ExtHandle} {i : Nat} {handle : ExtHandle} (next : left[i]? = some handle) :
      Reads s (.stopLoop left) (.pick i)
        [.dropRoutes handle .drainStop, .stopLoop (left.eraseIdx i)]
  | stopEnd : Reads s (.stopLoop []) .go []
  | wantedMissing {wanted : String} {left desired : List String} (missing : wanted ∉ desired) :
      Reads s (.wantedLoop (wanted :: left) desired) .go
        (recordFailure .missing wanted notFound ++ [.wantedLoop left desired])
  | wantedNext {wanted : String} {left desired : List String} :
      Reads s (.wantedLoop (wanted :: left) desired) .go [.wantedLoop left desired]
  | wantedEnd {desired : List String} : Reads s (.wantedLoop [] desired) .go []
  | startSkips {left : List String} {i : Nat} {candidateId : String}
      (next : left[i]? = some candidateId) (active : s.extensionCandidateIsActive candidateId = true) :
      Reads s (.startLoop left) (.pick i) [.startLoop (left.eraseIdx i)]
  | startNext {left : List String} {i : Nat} {candidateId : String}
      (next : left[i]? = some candidateId) :
      Reads s (.startLoop left) (.pick i) [.startExtension candidateId, .startLoop (left.eraseIdx i)]
  | startEnd : Reads s (.startLoop []) .go []
  | startFails (candidateId msg : String) {choice : Choice} :
      Reads s (.startExtension candidateId) choice (recordFailure .start candidateId msg)
  | exits (handle : ExtHandle) (reason : String) :
      Reads s (.watch handle) (.exits reason) [.removeGeneration handle (some reason)]
  | drained (handle : ExtHandle) : Reads s (.drain handle) .go [.removeGeneration handle none]
  | absent {handle : ExtHandle} {crash : Option String}
      (gone : ∀ found, s.tables.extensions.get? handle.id = some found →
        found.generation ≠ handle.generation) :
      Reads s (.removeGeneration handle crash) .go []
  | respawnRefused {candidateId : String} {late : Bool} (failed : s.isFailed candidateId = true) :
      Reads s (.respawnFailed candidateId late) .go []
  | respawnNotFailed (candidateId : String) (late : Bool) :
      Reads s (.respawnFailed candidateId late) .go [.respawnConfig candidateId late]
  | respawnUnwanted {candidateId : String} {late : Bool} (dropped : s.isWanted candidateId = false) :
      Reads s (.respawnConfig candidateId late) .go []
  | respawnEarly (candidateId : String) :
      Reads s (.respawnConfig candidateId false) .go [.nextRespawnDelay candidateId]
  | respawnLate (candidateId : String) :
      Reads s (.respawnConfig candidateId true) .go [.respawnActive candidateId]
  | crashloop (candidateId reason : String) :
      Reads s (.nextRespawnDelay candidateId) (.crashloop reason)
        (recordFailure .crashloop candidateId reason)
  | delay (candidateId : String) : Reads s (.nextRespawnDelay candidateId) .go [.sleep candidateId]
  | wakes (candidateId : String) : Reads s (.sleep candidateId) .go [.respawnFailed candidateId true]
  | respawnSkips {candidateId : String} (active : s.extensionCandidateIsActive candidateId = true) :
      Reads s (.respawnActive candidateId) .go []
  | respawns (candidateId : String) :
      Reads s (.respawnActive candidateId) .go [.startExtension candidateId]

/-- What an `unroute_extension` is followed by. -/
def After.next (handle : ExtHandle) : After → List Op
  | .drainStop => [.sendDrainStop handle]
  | .crashed candidateId reason =>
    [.markUnavailable .crash handle.candidateId (keysOf handle) reason,
      .respawnFailed candidateId false]
  | .drained => [.clearUnavailable (keysOf handle)]

/-- One section. -/
inductive Ran (s : State) : Op → Choice → State → List Op → Prop
  | reads {op : Op} {choice : Choice} {more : List Op} (reads : Reads s op choice more) :
      Ran s op choice s more
  | dropRoutes (handle : ExtHandle) (after : After) :
      Ran s (.dropRoutes handle after) .go
        { s with tables := ((Lifecycle.Op.dropRoutes handle.id).run s.tables).1 }
        [.dropPrefixes handle after]
  | dropPrefixes (handle : ExtHandle) (after : After) :
      Ran s (.dropPrefixes handle after) .go
        { s with tables := ((Lifecycle.Op.dropPrefixes handle.id).run s.tables).1 }
        [.clearUnrouted handle after]
  | clearUnrouted (handle : ExtHandle) (after : After) :
      Ran s (.clearUnrouted handle after) .go
        { s with tables := ((Lifecycle.Op.clearUnavailable (keysOf handle)).run s.tables).1 }
        (after.next handle)
  | sendDrainStop (handle : ExtHandle) :
      Ran s (.sendDrainStop handle) .go
        { s with drainStops := handle.generation :: s.drainStops } []
  | registers {candidateId : String} {reg : Registration} {tables : Lifecycle.State}
      (ok : registerExtension s.tables (newHandle candidateId reg s.registered.length) = .ok tables) :
      Ran s (.startExtension candidateId) (.registers reg)
        { s with
          tables := tables
          registered := s.registered ++ [newHandle candidateId reg s.registered.length] }
        [.clearFailed [candidateId, reg.id],
          .clearUnavailable (keysOf (newHandle candidateId reg s.registered.length)),
          .superviseExtension (newHandle candidateId reg s.registered.length),
          .clearFailed [candidateId]]
  | clearFailed (keys : List String) :
      Ran s (.clearFailed keys) .go
        { s with tables := ((Lifecycle.Op.clearFailed keys).run s.tables).1 } []
  | clearUnavailable (keys : List String) :
      Ran s (.clearUnavailable keys) .go
        { s with tables := ((Lifecycle.Op.clearUnavailable keys).run s.tables).1 } []
  | superviseExtension (handle : ExtHandle) :
      Ran s (.superviseExtension handle) .go
        { s with tasks := s.tasks ++ [[.watch handle]] } []
  | markFailed (author : Author) (candidateId reason : String) :
      Ran s (.markFailed author candidateId reason) .go
        { s with tables := ((Lifecycle.Op.markFailed candidateId reason).run s.tables).1 } []
  | markUnavailable (author : Author) (candidateId : String) (keys : List String)
      (reason : String) :
      Ran s (.markUnavailable author candidateId keys reason) .go
        { s with tables.unavailableRoutes :=
          recordUnavailable s.tables.unavailableRoutes author keys reason } []
  | takesDrainStop {handle : ExtHandle} (sent : handle.generation ∈ s.drainStops) :
      Ran s (.watch handle) .drainStop
        { s with drainStops := s.drainStops.filter (· ≠ handle.generation) } [.drain handle]
  | removes {handle found : ExtHandle} {crash : Option String}
      (present : s.tables.extensions.get? handle.id = some found)
      (same : found.generation = handle.generation) :
      Ran s (.removeGeneration handle crash) .go
        { s with tables.extensions := s.tables.extensions.erase handle.id }
        [.dropRoutes found (afterCleanup handle crash)]

theorem ran_of_run (h : op.run s choice = some (u, more)) : Ran s op choice u more := by
  unfold Op.run at h
  split at h
  case h_3 left i =>
    obtain ⟨handle, next, eq⟩ := Option.map_eq_some_iff.mp h
    cases eq
    exact .reads (.stopNext next)
  case h_5 wanted left desired =>
    cases h
    by_cases missing : s.extensionCandidateIsActive wanted = false ∧ wanted ∉ desired
    · rw [if_pos missing]
      exact .reads (.wantedMissing missing.2)
    · rw [if_neg missing]
      exact .reads .wantedNext
  case h_7 left i =>
    obtain ⟨candidateId, next, eq⟩ := Option.map_eq_some_iff.mp h
    cases eq
    by_cases active : s.extensionCandidateIsActive candidateId = true
    · rw [if_pos active]
      exact .reads (.startSkips next active)
    · rw [if_neg active]
      exact .reads (.startNext next)
  case h_11 handle after =>
    cases h
    cases after <;> exact .clearUnrouted handle _
  case h_14 candidateId reg =>
    dsimp only at h
    split at h
    · cases h
      exact .reads (.startFails candidateId _)
    · rename_i tables ok
      cases h
      exact .registers ok
  case h_21 handle =>
    split at h
    · rename_i sent
      cases h
      exact .takesDrainStop sent
    · cases h
  case h_23 handle crash =>
    split at h
    · rename_i none
      cases h
      refine .reads (.absent ?_)
      intro found present
      rw [none] at present
      cases present
    · rename_i found present
      split at h
      · rename_i same
        cases h
        exact .removes present same
      · rename_i other
        cases h
        refine .reads (.absent ?_)
        intro found' present'
        rw [present] at present'
        cases present'
        exact other
  case h_24 candidateId late =>
    cases h
    by_cases failed : s.isFailed candidateId = true
    · rw [if_pos failed]
      exact .reads (.respawnRefused failed)
    · rw [if_neg failed]
      exact .reads (.respawnNotFailed candidateId late)
  case h_25 candidateId late =>
    cases h
    by_cases wanted : s.isWanted candidateId = true
    · rw [if_pos wanted]
      cases late
      · exact .reads (.respawnEarly candidateId)
      · exact .reads (.respawnLate candidateId)
    · rw [if_neg wanted]
      exact .reads (.respawnUnwanted (Bool.eq_false_iff.mpr wanted))
  case h_29 candidateId =>
    cases h
    by_cases active : s.extensionCandidateIsActive candidateId = true
    · rw [if_pos active]
      exact .reads (.respawnSkips active)
    · rw [if_neg active]
      exact .reads (.respawns candidateId)
  case h_30 => cases h
  all_goals
    cases h
    first
      | exact .reads (by constructor)
      | exact .dropRoutes _ _
      | exact .dropPrefixes _ _
      | exact .sendDrainStop _
      | exact .clearFailed _
      | exact .clearUnavailable _
      | exact .superviseExtension _
      | exact .markFailed _ _ _
      | exact .markUnavailable _ _ _ _

/-! ## What stays pending -/

/-- What the task does next. -/
def State.next (s : State) (i : Nat) : Option Op := s.tasks[i]?.bind List.head?

/-- Across one section: everything else stays, `more` and a new supervisor come. -/
structure Took (s t : State) (op : Op) (more : List Op) : Prop where
  head : s.Pending (· = op)
  kept : ∀ {p : Op → Prop}, s.Pending p → p op ∨ t.Pending p
  added : ∀ {p : Op → Prop} {x : Op}, x ∈ more → p x → t.Pending p
  watched : ∀ {p : Op → Prop} {handle : ExtHandle}, op = .superviseExtension handle →
    p (.watch handle) → t.Pending p
  came : ∀ {p : Op → Prop}, t.Pending p → s.Pending p ∨ (∃ x ∈ more, p x) ∨
    ∃ handle, op = .superviseExtension handle ∧ p (.watch handle)

theorem ran_tasks (ran : Ran s op choice u more) :
    ∃ spawned, u.tasks = s.tasks ++ spawned ∧ (∀ handle, op = .superviseExtension handle →
      [.watch handle] ∈ spawned) ∧ ∀ ops ∈ spawned, ∃ handle,
        op = .superviseExtension handle ∧ ops = [.watch handle] := by
  cases ran with
  | superviseExtension handle =>
    refine ⟨[[.watch handle]], rfl, ?_, ?_⟩
    · intro other eq
      cases eq
      exact List.mem_singleton.mpr rfl
    · intro ops mem
      exact ⟨handle, rfl, List.mem_singleton.mp mem⟩
  | reads reads =>
    refine ⟨[], (List.append_nil _).symm, ?_, nofun⟩
    rintro handle rfl
    cases reads
  | _ => exact ⟨[], (List.append_nil _).symm, nofun, nofun⟩

theorem step_cases (hs : step s (.run i choice) = some t) :
    ∃ op u more tasks, s.next i = some op ∧ Ran s op choice u more ∧ Took s t op more ∧
      t = { u with tasks := tasks } := by
  simp only [step] at hs
  split at hs
  · rename_i op rest here
    obtain ⟨⟨u, more⟩, ran, rfl⟩ := Option.map_eq_some_iff.mp hs
    have ran := ran_of_run ran
    obtain ⟨spawned, tasks, watches, only⟩ := ran_tasks ran
    refine ⟨op, u, more, _, by simp [State.next, here], ran, ?_, rfl⟩
    obtain ⟨bound, _⟩ := List.getElem?_eq_some_iff.mp here
    have inside : i < u.tasks.length := by
      rw [tasks, List.length_append]
      omega
    have put : more ++ rest ∈ u.tasks.set i (more ++ rest) := List.mem_set inside _
    have stays (ops : List Op) (j : Nat) (ne : j ≠ i) (found : s.tasks[j]? = some ops) :
        ops ∈ u.tasks.set i (more ++ rest) := by
      apply @List.mem_of_getElem? _ _ j
      rw [List.getElem?_set_ne (Ne.symm ne), tasks]
      obtain ⟨bound, _⟩ := List.getElem?_eq_some_iff.mp found
      rw [List.getElem?_append_left bound, found]
    constructor
    · exact ⟨op :: rest, List.mem_of_getElem? here, op, List.mem_cons_self, rfl⟩
    · rintro p ⟨ops, mem, x, inOps, hx⟩
      obtain ⟨j, found⟩ := List.mem_iff_getElem?.mp mem
      by_cases eq : j = i
      · rw [eq, here] at found
        cases found
        obtain rfl | later := List.mem_cons.mp inOps
        · exact .inl hx
        · exact .inr ⟨_, put, x, List.mem_append_right _ later, hx⟩
      · exact .inr ⟨ops, stays ops j eq found, x, inOps, hx⟩
    · intro p x mem hx
      exact ⟨_, put, x, List.mem_append_left _ mem, hx⟩
    · intro p handle eq hx
      refine ⟨[.watch handle], ?_, _, List.mem_singleton.mpr rfl, hx⟩
      obtain ⟨k, found⟩ := List.mem_iff_getElem?.mp (watches handle eq)
      apply @List.mem_of_getElem? _ _ (s.tasks.length + k)
      rw [List.getElem?_set_ne (by omega), tasks, List.getElem?_append_right (by omega)]
      simpa using found
    · rintro p ⟨ops, mem, x, inOps, hx⟩
      obtain old | rfl := List.mem_or_eq_of_mem_set mem
      · rw [tasks] at old
        obtain old | new := List.mem_append.mp old
        · exact .inl ⟨ops, old, x, inOps, hx⟩
        · obtain ⟨handle, eq, rfl⟩ := only ops new
          rw [List.mem_singleton.mp inOps] at hx
          exact .inr (.inr ⟨handle, eq, hx⟩)
      · obtain new | old := List.mem_append.mp inOps
        · exact .inr (.inl ⟨x, new, hx⟩)
        · exact .inl ⟨op :: rest, List.mem_of_getElem? here, x, List.mem_cons_of_mem _ old, hx⟩
  · cases hs

theorem pending_append {p : Op → Prop} (pending : s.Pending p) (tasks : List (List Op))
    (eq : t.tasks = s.tasks ++ tasks) : t.Pending p := by
  obtain ⟨ops, mem, rest⟩ := pending
  exact ⟨ops, eq ▸ List.mem_append_left _ mem, rest⟩

/-! ## Handles and generations -/

/-- The handles a section is about. -/
def Op.handles : Op → List ExtHandle
  | .stopLoop left => left
  | .dropRoutes handle _ | .dropPrefixes handle _ | .clearUnrouted handle _
  | .sendDrainStop handle | .superviseExtension handle | .watch handle | .drain handle
  | .removeGeneration handle _ => [handle]
  | _ => []

/-! ## Tables -/

theorem get?_eraseAll (m : OrdMap String String) (keys : List String) (key : String) :
    (eraseAll m keys).get? key = if key ∈ keys then none else m.get? key := by
  unfold eraseAll
  induction keys generalizing m with
  | nil => simp
  | cons first rest ih =>
    rw [List.foldl_cons, ih, OrdMap.get?_erase]
    by_cases eq : key = first
    · simp [eq]
    · simp [eq]

theorem active_iff {candidateId : String} : s.extensionCandidateIsActive candidateId = true ↔
    ∃ handle ∈ s.tables.extensions.values, handle.candidateId = candidateId := by
  simp [State.extensionCandidateIsActive]

/-- A handle comes into the table by a registration only. -/
theorem ran_extensions (ran : Ran s op choice u more) {handle : ExtHandle}
    (mem : handle ∈ u.tables.extensions.values) : handle ∈ s.tables.extensions.values ∨
      ∃ candidateId reg, op = .startExtension candidateId ∧ choice = .registers reg ∧
        handle = newHandle candidateId reg s.registered.length ∧
        u.registered[handle.generation]? = some handle ∧
        Op.superviseExtension handle ∈ more := by
  cases ran with
  | @registers candidateId reg tables ok =>
    obtain ⟨_, _, rfl⟩ := registerExtension_ok ok
    obtain ⟨id, found⟩ := (OrdMap.mem_values_iff _ _).mp mem
    rw [OrdMap.get?_insert] at found
    split at found
    · cases found
      exact .inr ⟨candidateId, reg, rfl, rfl, rfl, by simp [newHandle], by simp⟩
    · exact .inl ((OrdMap.mem_values_iff _ _).mpr ⟨id, found⟩)
  | @removes other found crash present same =>
    obtain ⟨id, found⟩ := (OrdMap.mem_values_iff _ _).mp mem
    rw [OrdMap.get?_erase] at found
    split at found
    · cases found
    · exact .inl ((OrdMap.mem_values_iff _ _).mpr ⟨id, found⟩)
  | _ => exact .inl mem

theorem reads_handles (reads : Reads s op choice more) {handle : ExtHandle}
    (mem : handle ∈ more.flatMap Op.handles) :
    handle ∈ op.handles ∨ handle ∈ s.tables.extensions.values := by
  cases reads with
  | stopRemoved desired enabled =>
    simp only [List.flatMap_cons, Op.handles, List.flatMap_nil, List.append_nil] at mem
    exact .inr (List.mem_of_mem_filter mem)
  | @stopNext left i next found =>
    simp only [List.flatMap_cons, Op.handles, List.flatMap_nil, List.append_nil,
      List.singleton_append, List.mem_cons] at mem
    obtain rfl | mem := mem
    · exact .inl (List.mem_of_getElem? found)
    · exact .inl (List.mem_of_mem_eraseIdx mem)
  | exits | drained => exact .inl (by simpa [Op.handles] using mem)
  | _ => simp [recordFailure, Op.handles] at mem

theorem ran_handles (ran : Ran s op choice u more) {handle : ExtHandle}
    (mem : handle ∈ more.flatMap Op.handles) :
    handle ∈ op.handles ∨ handle ∈ s.tables.extensions.values ∨
      u.registered[handle.generation]? = some handle := by
  cases ran with
  | reads reads =>
    obtain own | table := reads_handles reads mem
    · exact .inl own
    · exact .inr (.inl table)
  | clearUnrouted other after =>
    cases after with
    | drainStop => exact .inl (by simpa [After.next, Op.handles] using mem)
    | _ => simp [After.next, Op.handles] at mem
  | registers ok =>
    simp only [List.flatMap_cons, Op.handles, List.flatMap_nil, List.append_nil,
      List.nil_append, List.mem_singleton] at mem
    subst mem
    exact .inr (.inr (by simp [newHandle]))
  | removes present same =>
    simp only [List.flatMap_cons, Op.handles, List.flatMap_nil, List.append_nil,
      List.mem_singleton] at mem
    subst mem
    exact .inr (.inl ((OrdMap.mem_values_iff _ _).mpr ⟨_, present⟩))
  | dropRoutes | dropPrefixes | takesDrainStop => exact .inl (by simpa [Op.handles] using mem)
  | _ => simp at mem

/-- A generation names one handle, in the table and in every task. -/
structure Known (s : State) : Prop where
  keyed : ∀ id handle, s.tables.extensions.get? id = some handle → handle.id = id
  table : ∀ handle ∈ s.tables.extensions.values,
    s.registered[handle.generation]? = some handle
  tasks : ∀ handle, s.Pending (fun op => handle ∈ op.handles) →
    s.registered[handle.generation]? = some handle

theorem Known.eq (known : Known s) {handle other : ExtHandle}
    (mem : handle ∈ s.tables.extensions.values) (pending : s.Pending fun op => other ∈ op.handles)
    (same : other.generation = handle.generation) : other = handle := by
  have found := known.tasks other pending
  rw [same, known.table handle mem] at found
  exact (Option.some.inj found).symm

theorem Known.get? (known : Known s) {handle : ExtHandle}
    (mem : handle ∈ s.tables.extensions.values) :
    s.tables.extensions.get? handle.id = some handle := by
  obtain ⟨id, found⟩ := (OrdMap.mem_values_iff _ _).mp mem
  rw [known.keyed id handle found]
  exact found

theorem ran_registered (ran : Ran s op choice u more) :
    u.registered = s.registered ∨ ∃ handle, u.registered = s.registered ++ [handle] := by
  cases ran with
  | registers ok => exact .inr ⟨_, rfl⟩
  | _ => exact .inl rfl

theorem registered_stays (ran : Ran s op choice u more) {g : Nat} {handle : ExtHandle}
    (found : s.registered[g]? = some handle) : u.registered[g]? = some handle := by
  obtain eq | ⟨new, eq⟩ := ran_registered ran
  · rw [eq]
    exact found
  · obtain ⟨bound, _⟩ := List.getElem?_eq_some_iff.mp found
    rw [eq, List.getElem?_append_left bound]
    exact found

theorem ran_keyed (ran : Ran s op choice u more)
    (keyed : ∀ id handle, s.tables.extensions.get? id = some handle → handle.id = id) (id : String)
    (handle : ExtHandle) (found : u.tables.extensions.get? id = some handle) :
    handle.id = id := by
  cases ran with
  | registers ok =>
    obtain ⟨_, _, rfl⟩ := registerExtension_ok ok
    rw [OrdMap.get?_insert] at found
    split at found
    · rename_i eq
      cases found
      exact eq.symm
    · exact keyed id handle found
  | removes present same =>
    rw [OrdMap.get?_erase] at found
    split at found
    · cases found
    · exact keyed id handle found
  | _ => exact keyed id handle found

theorem run_known (known : Known s) (hs : step s (.run i choice) = some t) : Known t := by
  obtain ⟨op, u, more, tasks, _, ran, took, rfl⟩ := step_cases hs
  constructor
  · intro id handle found
    exact ran_keyed ran known.keyed id handle found
  · intro handle mem
    obtain old | ⟨_, _, _, _, _, new, _⟩ := ran_extensions ran mem
    · exact registered_stays ran (known.table handle old)
    · exact new
  · intro handle pending
    obtain old | ⟨x, mem, about⟩ | ⟨other, rfl, about⟩ := took.came pending
    · exact registered_stays ran (known.tasks handle old)
    · obtain own | table | new := ran_handles ran (List.mem_flatMap.mpr ⟨x, mem, about⟩)
      · obtain ⟨ops, inTasks, _, inOps, rfl⟩ := took.head
        exact registered_stays ran (known.tasks handle ⟨ops, inTasks, _, inOps, own⟩)
      · exact registered_stays ran (known.table handle table)
      · exact new
    · obtain ⟨ops, inTasks, _, inOps, rfl⟩ := took.head
      exact registered_stays ran (known.tasks handle ⟨ops, inTasks, _, inOps, about⟩)

theorem step_reload {config : Config} (hs : step s (.reload config) = some t) :
    ¬ s.Pending (fun op => op.ofReload = true) ∧
      t = { s with config := config, tasks := s.tasks ++ [[.startExtensions]] } := by
  simp only [step] at hs
  split at hs
  · cases hs
  · rename_i idle
    cases hs
    exact ⟨idle, rfl⟩

/-- A reload adds the section that reads the configuration. -/
theorem reload_came {p : Op → Prop} (pending : t.Pending p)
    (tasks : t.tasks = s.tasks ++ [[.startExtensions]]) :
    s.Pending p ∨ p .startExtensions := by
  obtain ⟨ops, mem, op, inOps, hp⟩ := pending
  rw [tasks] at mem
  obtain old | new := List.mem_append.mp mem
  · exact .inl ⟨ops, old, op, inOps, hp⟩
  · rw [List.mem_singleton.mp new] at inOps
    rw [List.mem_singleton.mp inOps] at hp
    exact .inr hp

theorem step_known (known : Known s) {a : Action} (hs : step s a = some t) : Known t := by
  cases a with
  | run i choice => exact run_known known hs
  | changePath discovered =>
    cases hs
    exact ⟨known.keyed, known.table, known.tasks⟩
  | reload config =>
    obtain ⟨_, rfl⟩ := step_reload hs
    refine ⟨known.keyed, known.table, fun handle pending => ?_⟩
    obtain old | new := reload_came pending rfl
    · exact known.tasks handle old
    · cases new

theorem known_boot (config : Config) (discovered : List String) :
    Known (boot config discovered) := by
  constructor
  · intro id handle found
    cases found
  · intro handle mem
    cases mem
  · rintro handle ⟨ops, mem, op, inOps, about⟩
    rw [List.mem_singleton.mp mem] at inOps
    rw [List.mem_singleton.mp inOps] at about
    cases about

/-- A handle leaves the table by the cleanup of its generation only. -/
theorem ran_stays (ran : Ran s op choice u more) {handle : ExtHandle}
    (mem : handle ∈ s.tables.extensions.values) : handle ∈ u.tables.extensions.values ∨
      ∃ other crash, op = .removeGeneration other crash ∧
        s.tables.extensions.get? other.id = some handle ∧
        handle.generation = other.generation ∧
        more = [.dropRoutes handle (afterCleanup other crash)] := by
  obtain ⟨id, found⟩ := (OrdMap.mem_values_iff _ _).mp mem
  cases ran with
  | @registers candidateId reg tables ok =>
    obtain ⟨absent, _, rfl⟩ := registerExtension_ok ok
    refine .inl ((OrdMap.mem_values_iff _ _).mpr ⟨id, ?_⟩)
    have ne : id ≠ (newHandle candidateId reg s.registered.length).id := by
      rintro rfl
      rw [absent] at found
      cases found
    rw [OrdMap.get?_insert, if_neg ne]
    exact found
  | @removes other removed crash present same =>
    by_cases eq : id = other.id
    · rw [eq, present] at found
      cases found
      exact .inr ⟨other, crash, rfl, present, same, rfl⟩
    · refine .inl ((OrdMap.mem_values_iff _ _).mpr ⟨id, ?_⟩)
      rw [OrdMap.get?_erase, if_neg eq]
      exact found
  | _ => exact .inl mem

/-! ## Supervisors -/

/-- The supervisor of the generation is about to start, or has not removed it yet. -/
def Op.owns (generation : Uuid) : Op → Bool
  | .superviseExtension handle | .watch handle | .drain handle | .removeGeneration handle _ =>
    handle.generation = generation
  | _ => false

/-- Every handle of the table has its supervisor. -/
def Owned (s : State) : Prop :=
  ∀ handle ∈ s.tables.extensions.values, s.Pending fun op => op.owns handle.generation = true

theorem Took.pending_of_head (took : Took s t op more) {p : Op → Prop} (hp : p op) :
    s.Pending p := by
  obtain ⟨ops, mem, _, inOps, rfl⟩ := took.head
  exact ⟨ops, mem, _, inOps, hp⟩

/-- The handle of a section is the one of its generation in the table. -/
theorem Took.same_handle (took : Took s t op more) (known : Known s) {handle other : ExtHandle}
    (about : op.handles = [other]) (mem : handle ∈ s.tables.extensions.values)
    (same : other.generation = handle.generation) : other = handle := by
  have inOp : other ∈ op.handles := by
    rw [about]
    exact List.mem_singleton.mpr rfl
  exact known.eq mem (took.pending_of_head inOp) same

/-- A cleanup leaves no handle of its generation in the table. -/
theorem cleanup_removes (known : Known s) {handle other : ExtHandle} {crash : Option String}
    (ran : Ran s (.removeGeneration other crash) choice u more)
    (took : Took s t (.removeGeneration other crash) more)
    (mem : handle ∈ s.tables.extensions.values) (same : other.generation = handle.generation) :
    handle ∉ u.tables.extensions.values := by
  have eq := took.same_handle known rfl mem same
  subst eq
  cases ran with
  | reads reads =>
    cases reads with
    | absent gone => exact absurd rfl (gone other (known.get? mem))
  | removes present same =>
    intro stays
    obtain ⟨id, found⟩ := (OrdMap.mem_values_iff _ _).mp stays
    rw [OrdMap.get?_erase] at found
    split at found
    · cases found
    · rename_i ne
      exact ne (known.keyed id other found).symm

theorem run_owned (known : Known s) (owned : Owned s) (hs : step s (.run i choice) = some t) :
    Owned t := by
  obtain ⟨op, u, more, tasks, _, ran, took, rfl⟩ := step_cases hs
  intro handle mem
  obtain old | ⟨_, _, _, _, _, _, new⟩ := ran_extensions ran mem
  · obtain own | pending := took.kept (owned handle old)
    · cases op with
      | superviseExtension other => exact took.watched rfl own
      | removeGeneration other crash =>
        have gone := cleanup_removes known ran took old (of_decide_eq_true own)
        exact absurd mem gone
      | watch other =>
        cases ran with
        | reads reads =>
          cases reads with
          | exits => exact took.added List.mem_cons_self own
        | takesDrainStop => exact took.added List.mem_cons_self own
      | drain other =>
        cases ran with
        | reads reads =>
          cases reads with
          | drained => exact took.added List.mem_cons_self own
      | _ => cases own
    · exact pending
  · exact took.added new (decide_eq_true rfl)

theorem step_owned (known : Known s) (owned : Owned s) {a : Action} (hs : step s a = some t) :
    Owned t := by
  cases a with
  | run i choice => exact run_owned known owned hs
  | changePath discovered =>
    cases hs
    exact owned
  | reload config =>
    obtain ⟨_, rfl⟩ := step_reload hs
    exact fun handle mem => pending_append (owned handle mem) _ rfl

end Whdr.Daemon
