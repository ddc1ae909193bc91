import Whdr.Server.Dispatch

/-! The forms a request goes through in an undisturbed run, and that its own steps keep it
in one of them. -/
namespace Whdr.Dispatch

open DeliveryLog (AppendFault StoredEvent Shared stampRows)
open Lifecycle (ExtHandle)

/-- The forms a request can take in an undisturbed run. `holds`: the reader holds its
sender; `on`: there is a log; `own`: the events of a line that may be emitted. -/
inductive Course (holds on : Bool) (own : List Event → List Event) : Request → Prop
  | untaken {pending : Bool} {stage : Stage} (free : holds = false)
      (early : stage = .sending ∨ stage = .waiting ∨ stage = .timedOut ∨
        stage = .finished ∧ pending = false) :
      Course holds on own ⟨pending, none, stage, none, none, [], []⟩
  | nothing {line : List Event} {slot : Option (List Event)} {stage : Stage}
      (empty : own line = []) (sent : slot = none ∨ slot = some [])
      (stages : stage = .waiting ∨ stage = .timedOut ∨ stage = .finished)
      (waits : stage = .waiting → slot = none → holds = true) :
      Course holds on own ⟨false, slot, stage, none, some line, [], []⟩
  | held {line : List Event} (nonempty : own line ≠ []) (taken : holds = true) :
      Course holds on own ⟨false, none, .waiting, none, some line, [], []⟩
  | sent {line : List Event} (nonempty : own line ≠ []) (free : holds = false) :
      Course holds on own ⟨false, some (own line), .waiting, none, some line, [], []⟩
  | queued {line : List Event} (nonempty : own line ≠ []) (free : holds = false)
      (delivery : on = true) :
      Course holds on own
        ⟨false, none, .appending (own line), some (.queued (own line)), some line, [], []⟩
  | returned {line : List Event} {rows : List StampedEvent} (nonempty : own line ≠ [])
      (free : holds = false) (delivery : on = true) (same : rows.map eventOf = own line) :
      Course holds on own
        ⟨false, none, .appending (own line), some (.returned (.ok rows)), some line, [rows], []⟩
  | stamped {line : List Event} {rows : List StampedEvent} {job : Option Job}
      (nonempty : own line ≠ []) (free : holds = false) (same : rows.map eventOf = own line)
      (idle : ∀ events, job ≠ some (.queued events)) :
      Course holds on own
        ⟨false, none, .stamped rows, job, some line, if on then [rows] else [], []⟩
  | done {line : List Event} {rows : List StampedEvent} {job : Option Job}
      (nonempty : own line ≠ []) (free : holds = false) (same : rows.map eventOf = own line)
      (idle : ∀ events, job ≠ some (.queued events)) :
      Course holds on own
        ⟨false, none, .finished, job, some line, if on then [rows] else [], [rows]⟩

variable {handle : ExtHandle} {valueLen : StoredEvent → Nat} {textLen : SubServerMsg → Nat}
  {s t : State} {r : Uuid} {q : Request} {a : RequestAction} {holds on : Bool}
  {own : List Event → List Event}

/-! ## Filters and batches -/

theorem filter_owned (n : Nat) (events : List Event) :
    (filterOwnedEvents handle.id handle.paths handle.channels n events).1 = owned handle events :=
  filterOwnedEvents_events handle.id handle.paths handle.channels n events

theorem owned_owned (events : List Event) :
    owned handle (owned handle events) = owned handle events := by
  simp [owned, List.filter_filter]

theorem stampRows_events (base tsMs : Nat) (mint : Nat → Uuid) (events : List Event) :
    (stampRows base tsMs mint events).map eventOf = events := by
  apply List.ext_getElem?
  intro i
  cases at_i : events[i]? <;> simp [stampRows, at_i, eventOf]

theorem stampInMemory_events (reg : SubscriberRegistry) (mint : Nat → Uuid) (tsMs : Nat)
    (events : List Event) : (reg.stampInMemory mint tsMs events).1.map eventOf = events := by
  rw [SubscriberRegistry.stampInMemory_rows, stampRows_events]

/-! ## One step of a request -/

/-- A step of the request `r` changes its entry and the registry, and keeps the log on or
off. -/
structure Advances (s : State) (r : Uuid) (q' : Request) (t : State) : Prop where
  reader : t.reader = s.reader
  requests : t.requests = s.requests.insert r q'
  delivery : t.registry.delivery.isSome = s.registry.delivery.isSome

theorem advances_put (s : State) (r : Uuid) (q' : Request) : Advances s r q' (s.put r q') :=
  ⟨rfl, rfl, rfl⟩

theorem receive_course {mint : Nat → Uuid} {tsMs : Nat}
    (c : Course (s.holds r) s.registry.delivery.isSome (owned handle) q)
    (hs : advance handle valueLen textLen s r q (.receive mint tsMs) = some t) :
    ∃ q', Advances s r q' t ∧ q'.taken = q.taken ∧
      Course (s.holds r) s.registry.delivery.isSome (owned handle) q' := by
  simp only [advance] at hs
  split at hs
  · rename_i events stage slot
    cases hs
    cases c with
    | untaken free early => cases slot
    | nothing empty sent stages waits =>
      have none : events = [] := by
        obtain eq | eq := sent
        · rw [eq] at slot
          cases slot
        · rw [eq] at slot
          exact (Option.some.inj slot).symm
      subst none
      refine ⟨_, advances_put _ r _, rfl, ?_⟩
      exact .nothing empty (.inl rfl) (.inr (.inr rfl)) nofun
    | held nonempty taken => cases slot
    | sent nonempty free =>
      rename_i line
      cases slot
      simp only [received, filter_owned, owned_owned, nonempty, ↓reduceIte]
      split
      · rename_i on
        exact ⟨_, ⟨rfl, rfl, rfl⟩, rfl, .queued nonempty free on⟩
      · rename_i off
        refine ⟨_, ⟨rfl, rfl, rfl⟩, rfl, ?_⟩
        have course := @Course.stamped (s.holds r) s.registry.delivery.isSome (owned handle) line
          (s.registry.stampInMemory mint tsMs (owned handle line)).1 none nonempty free
          (stampInMemory_events _ _ _ _) nofun
        rw [if_neg off] at course
        exact course
    | queued | returned | stamped | done => cases stage
  · cases hs

theorem runJob_course {mint : Nat → Uuid} {tsMs : Nat} {fault : Option AppendFault}
    (c : Course (s.holds r) s.registry.delivery.isSome (owned handle) q)
    (ok : ∀ events ∈ q.queuedEvents, fault.filter (AppendFault.reached events.length) = none)
    (hs : advance handle valueLen textLen s r q (.runJob mint tsMs fault) = some t) :
    ∃ q', Advances s r q' t ∧ q'.taken = q.taken ∧
      Course (s.holds r) s.registry.delivery.isSome (owned handle) q' := by
  simp only [advance] at hs
  split at hs
  · rename_i events job
    cases c with
    | queued nonempty free delivery =>
      rename_i line
      cases job
      obtain ⟨log, isLog⟩ := Option.isSome_iff_exists.mp delivery
      have fine := ok _ rfl
      simp only [appended, isLog, Shared.append, nonempty, ↓reduceIte, Shared.appendBlocking,
        fine] at hs
      cases hs
      refine ⟨_, ⟨rfl, rfl, by rw [isLog]; rfl⟩, rfl, ?_⟩
      exact .returned nonempty free delivery (stampRows_events _ _ _ _)
    | stamped _ _ _ idle | done _ _ _ idle => exact absurd job (idle events)
    | untaken | nothing | held | sent | returned => cases job
  · cases hs

theorem joinJob_course {mint : Nat → Uuid} {tsMs : Nat}
    (c : Course (s.holds r) s.registry.delivery.isSome (owned handle) q)
    (hs : advance handle valueLen textLen s r q (.joinJob mint tsMs) = some t) :
    ∃ q', Advances s r q' t ∧ q'.taken = q.taken ∧
      Course (s.holds r) s.registry.delivery.isSome (owned handle) q' := by
  simp only [advance] at hs
  split at hs
  · rename_i fallback result stage job
    cases c with
    | returned nonempty free delivery same =>
      rename_i line rows
      cases job
      cases hs
      refine ⟨_, advances_put s r _, rfl, ?_⟩
      have course := @Course.stamped (s.holds r) s.registry.delivery.isSome (owned handle) line rows
        (some (.returned (.ok rows))) nonempty free same nofun
      rw [if_pos delivery] at course
      exact course
    | untaken _ early => obtain eq | eq | eq | ⟨eq, _⟩ := early <;> rw [eq] at stage <;> cases stage
    | nothing _ _ stages _ => obtain eq | eq | eq := stages <;> rw [eq] at stage <;> cases stage
    | queued => cases job
    | held | sent | stamped | done => cases stage
  · cases hs

theorem push_course (c : Course (s.holds r) s.registry.delivery.isSome (owned handle) q)
    (hs : advance handle valueLen textLen s r q .push = some t) :
    ∃ q', Advances s r q' t ∧ q'.taken = q.taken ∧
      Course (s.holds r) s.registry.delivery.isSome (owned handle) q' := by
  simp only [advance] at hs
  split at hs
  · rename_i rows stage
    cases c with
    | stamped nonempty free same idle =>
      cases stage
      cases hs
      exact ⟨_, ⟨rfl, rfl, rfl⟩, rfl, .done nonempty free same idle⟩
    | untaken _ early => obtain eq | eq | eq | ⟨eq, _⟩ := early <;> rw [eq] at stage <;> cases stage
    | nothing _ _ stages _ => obtain eq | eq | eq := stages <;> rw [eq] at stage <;> cases stage
    | held | sent | queued | returned | done => cases stage
  · cases hs

/-- Before a result with events is taken, the future may end in any of its ways. -/
theorem ended_course (c : Course holds on own q)
    (nothing : ∀ line, q.taken = some line → own line = []) :
    Course holds on own { q with pending := false, slot := none, stage := .finished } := by
  cases c with
  | untaken free early => exact .untaken free (.inr (.inr (.inr ⟨rfl, rfl⟩)))
  | nothing empty sent stages waits => exact .nothing empty (.inl rfl) (.inr (.inr rfl)) nofun
  | held nonempty | sent nonempty | queued nonempty | returned nonempty | stamped nonempty
  | done nonempty => exact absurd (nothing _ rfl) nonempty

theorem sending_course (c : Course holds on own q) (stage : q.stage = .sending) :
    holds = false ∧ q = ⟨q.pending, none, .sending, none, none, [], []⟩ := by
  cases c with
  | untaken free early =>
    cases stage
    exact ⟨free, rfl⟩
  | nothing _ _ stages _ => obtain eq | eq | eq := stages <;> rw [eq] at stage <;> cases stage
  | held | sent | queued | returned | stamped | done => cases stage

theorem dead_course (c : Course holds on own q) (stage : q.stage = .waiting) (slot : q.slot = none)
    (free : holds = false) (gone : q.pending = false) :
    Course holds on own { q with stage := .finished } := by
  cases c with
  | untaken free early =>
    cases gone
    exact .untaken free (.inr (.inr (.inr ⟨rfl, rfl⟩)))
  | nothing _ _ _ waits =>
    rw [waits stage slot] at free
    cases free
  | held _ taken =>
    rw [taken] at free
    cases free
  | sent => cases slot
  | queued | returned | stamped | done => cases stage

theorem timeout_course (c : Course holds on own q) (slot : q.slot = none)
    (nothing : ∀ line, q.taken = some line → own line = []) :
    Course holds on own { q with stage := .timedOut } := by
  cases c with
  | untaken free early => exact .untaken free (.inr (.inr (.inl rfl)))
  | nothing empty sent stages waits => exact .nothing empty (.inl slot) (.inr (.inl rfl)) nofun
  | held nonempty | sent nonempty | queued nonempty | returned nonempty | stamped nonempty
  | done nonempty => exact absurd (nothing _ rfl) nonempty

theorem timedOut_nothing (c : Course holds on own q) (stage : q.stage = .timedOut) :
    ∀ line, q.taken = some line → own line = [] := by
  intro line taken
  cases c with
  | untaken => cases taken
  | nothing empty =>
    cases taken
    exact empty
  | held | sent | queued | returned | stamped | done => cases stage

theorem advance_course (c : Course (s.holds r) s.registry.delivery.isSome (owned handle) q)
    (entry : s.requests.get? r = some q) (ok : Undisturbed handle s (.request r a))
    (hs : advance handle valueLen textLen s r q a = some t) :
    ∃ q', Advances s r q' t ∧ q'.taken = q.taken ∧
      Course (s.holds r) s.registry.delivery.isSome (owned handle) q' := by
  cases a with
  | receive mint tsMs => exact receive_course c hs
  | runJob mint tsMs fault => exact runJob_course c (ok q entry) hs
  | joinJob mint tsMs => exact joinJob_course c hs
  | push => exact push_course c hs
  | send =>
    simp only [advance] at hs
    split at hs
    · rename_i stage
      cases hs
      obtain ⟨free, eq⟩ := sending_course c stage
      refine ⟨_, advances_put s r _, rfl, ?_⟩
      rw [eq]
      exact .untaken free (.inr (.inl rfl))
    · cases hs
  | sendFails =>
    simp only [advance] at hs
    split at hs
    · rename_i stage
      cases hs
      obtain ⟨free, eq⟩ := sending_course c stage
      refine ⟨_, advances_put s r _, rfl, ?_⟩
      rw [eq]
      exact .untaken free (.inr (.inr (.inr ⟨rfl, rfl⟩)))
    · cases hs
  | dead =>
    simp only [advance] at hs
    split at hs
    · rename_i guards
      obtain ⟨stage, slot, gone, free⟩ := guards
      cases hs
      exact ⟨_, advances_put s r _, rfl, dead_course c stage slot free gone⟩
    · cases hs
  | timeout =>
    simp only [advance] at hs
    split at hs
    · rename_i guards
      obtain ⟨stage, slot, alive⟩ := guards
      cases hs
      exact ⟨_, advances_put s r _, rfl, timeout_course c slot (ok q entry)⟩
    · cases hs
  | removePending =>
    simp only [advance] at hs
    split at hs
    · rename_i stage
      cases hs
      exact ⟨_, advances_put s r _, rfl, ended_course c (timedOut_nothing c stage)⟩
    · cases hs
  | cancel =>
    simp only [advance] at hs
    split at hs
    · cases hs
      exact ⟨_, advances_put s r _, rfl, ended_course c (ok q entry)⟩
    · cases hs

end Whdr.Dispatch
