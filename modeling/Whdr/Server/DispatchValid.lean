import Whdr.Server.DispatchCourse

/-! Every step of an undisturbed run keeps every request on its course. -/
namespace Whdr.Dispatch

open DeliveryLog (StoredEvent)
open Lifecycle (ExtHandle)

variable {handle : ExtHandle} {valueLen : StoredEvent → Nat} {textLen : SubServerMsg → Nat}
  {s t : State} {r : Uuid} {q : Request} {holds on : Bool} {own : List Event → List Event}

structure Valid (handle : ExtHandle) (s : State) : Prop where
  course : ∀ r q, s.requests.get? r = some q →
    Course (s.holds r) s.registry.delivery.isSome (owned handle) q
  held : ∀ r events, s.reader = some (r, events) →
    ∃ q line, s.requests.get? r = some q ∧ q.taken = some line ∧ events = owned handle line

theorem holds_of_reader {events : List Event} (h : s.reader = some (r, events)) (other : Uuid) :
    s.holds other = (r == other) := by
  simp [State.holds, h]

theorem not_holds_of_none (h : s.reader = none) (other : Uuid) : s.holds other = false := by
  simp [State.holds, h]

theorem holds_congr (same : t.reader = s.reader) (r : Uuid) : t.holds r = s.holds r := by
  unfold State.holds
  rw [same]

theorem valid_advances {q' : Request} (valid : Valid handle s)
    (entry : s.requests.get? r = some q) (adv : Advances s r q' t) (taken : q'.taken = q.taken)
    (c : Course (s.holds r) s.registry.delivery.isSome (owned handle) q') : Valid handle t := by
  constructor
  · intro other p found
    rw [holds_congr adv.reader, adv.delivery]
    rw [adv.requests, OrdMap.get?_insert] at found
    split at found
    · rename_i eq
      cases found
      rw [eq]
      exact c
    · exact valid.course other p found
  · intro other events reader
    rw [adv.reader] at reader
    obtain ⟨p, line, found, takenLine, eq⟩ := valid.held other events reader
    rw [adv.requests, OrdMap.get?_insert]
    split
    · rename_i same
      rw [same, entry] at found
      cases found
      exact ⟨q', line, rfl, taken.trans takenLine, eq⟩
    · exact ⟨p, line, found, takenLine, eq⟩

theorem valid_reserve (valid : Valid handle s) (fresh : s.requests.get? r = none) :
    Valid handle (s.put r newRequest) := by
  have free : s.holds r = false := by
    cases reader : s.reader with
    | none => exact not_holds_of_none reader r
    | some held =>
      obtain ⟨other, events⟩ := held
      obtain ⟨q, _, found, _⟩ := valid.held other events reader
      rw [holds_of_reader reader]
      apply beq_eq_false_iff_ne.mpr
      rintro rfl
      rw [fresh] at found
      cases found
  constructor
  · intro other p found
    change (s.requests.insert r newRequest).get? other = some p at found
    rw [OrdMap.get?_insert] at found
    split at found
    · rename_i eq
      cases found
      rw [eq]
      exact .untaken free (.inl rfl)
    · exact valid.course other p found
  · intro other events reader
    obtain ⟨p, line, found, taken, eq⟩ := valid.held other events reader
    have ne : other ≠ r := by
      rintro rfl
      rw [fresh] at found
      cases found
    exact ⟨p, line, (OrdMap.get?_insert_ne _ _ ne).trans found, taken, eq⟩

/-- Taking an entry: the request becomes held, unless its line has nothing to emit. -/
theorem taken_course {events : List Event} (c : Course holds on own q) (pending : q.pending = true)
    (sent : q.stage ≠ .sending) (ok : q.stage = .timedOut → q.pending = true → own events = []) :
    Course true on own { q with pending := false, taken := some events } := by
  cases c with
  | untaken free early =>
    by_cases empty : own events = []
    · apply Course.nothing empty (.inl rfl)
      · obtain eq | eq | eq | ⟨_, gone⟩ := early
        · exact absurd eq sent
        · exact .inl eq
        · exact .inr (.inl eq)
        · cases gone.symm.trans pending
      · intro _ _
        rfl
    · obtain eq | eq | eq | ⟨_, gone⟩ := early
      · exact absurd eq sent
      · subst eq
        exact .held empty rfl
      · exact absurd (ok eq pending) empty
      · cases gone.symm.trans pending
  | nothing | held | sent | queued | returned | stamped | done => cases pending

theorem valid_readLine {events : List Event} (valid : Valid handle s)
    (ok : Undisturbed handle s (.readLine r events)) (hs : readLine handle s r events = some t) :
    Valid handle t := by
  unfold readLine at hs
  split at hs
  · cases hs
  · rename_i idle
    have idle : s.reader = none := by simpa using idle
    split at hs
    · cases hs
      exact valid
    · rename_i q entry
      split at hs
      · cases hs
      · rename_i sent
        split at hs
        · cases hs
          exact valid
        · rename_i pending
          cases hs
          have pending : q.pending = true := by simpa using pending
          have c := taken_course (valid.course r q entry) pending sent (ok q entry)
          constructor
          · intro other p found
            change (s.requests.insert r _).get? other = some p at found
            rw [OrdMap.get?_insert] at found
            split at found
            · rename_i eq
              cases found
              rw [eq, holds_of_reader rfl, beq_self_eq_true]
              exact c
            · rename_i ne
              have old := valid.course other p found
              rw [not_holds_of_none idle] at old
              rw [holds_of_reader rfl, beq_eq_false_iff_ne.mpr (Ne.symm ne)]
              exact old
          · intro other kept reader
            cases reader
            exact ⟨_, events, OrdMap.get?_insert_self _ _ _, rfl, filter_owned _ _⟩

/-- The sender is used up: the result is in the oneshot, or nobody is there to take it. -/
theorem sent_course {line : List Event} (c : Course true on own q) (taken : q.taken = some line) :
    (q.stage = .finished → Course false on own q) ∧
      (q.stage ≠ .finished → Course false on own { q with slot := some (own line) }) := by
  cases c with
  | nothing empty sent stages waits =>
    cases taken
    constructor
    · rintro rfl
      exact .nothing empty sent (.inr (.inr rfl)) nofun
    · intro _
      exact .nothing empty (.inr (congrArg some empty)) stages nofun
  | held nonempty _ =>
    cases taken
    exact ⟨nofun, fun _ => .sent nonempty rfl⟩
  | untaken free | sent _ free | queued _ free | returned _ free | stamped _ free
  | done _ free => cases free

theorem valid_sendResult (valid : Valid handle s) (hs : sendResult s = some t) :
    Valid handle t := by
  unfold sendResult at hs
  split at hs
  · cases hs
  · rename_i r events reader
    obtain ⟨q, line, entry, taken, eq⟩ := valid.held r events reader
    have c := valid.course r q entry
    rw [holds_of_reader reader, beq_self_eq_true] at c
    have others : ∀ other p, other ≠ r → s.requests.get? other = some p →
        Course false s.registry.delivery.isSome (owned handle) p := by
      intro other p ne found
      have old := valid.course other p found
      rwa [holds_of_reader reader, beq_eq_false_iff_ne.mpr (Ne.symm ne)] at old
    simp only [entry] at hs
    split at hs
    · rename_i stage
      cases hs
      constructor
      · intro other p found
        rw [not_holds_of_none rfl]
        by_cases same : other = r
        · rw [same, entry] at found
          cases found
          exact (sent_course c taken).1 stage
        · exact others other p same found
      · intro other kept none
        cases none
    · rename_i stage
      cases hs
      constructor
      · intro other p found
        rw [not_holds_of_none rfl]
        change (s.requests.insert r _).get? other = some p at found
        rw [OrdMap.get?_insert] at found
        split at found
        · cases found
          rw [eq]
          exact (sent_course c taken).2 stage
        · rename_i ne
          exact others other p ne found
      · intro other kept none
        cases none

theorem valid_clear (valid : Valid handle s) :
    Valid handle { s with
      requests := s.requests.mapValues fun _ q => { q with pending := false } } := by
  constructor
  · intro other p found
    rw [OrdMap.get?_mapValues] at found
    obtain ⟨q, old, rfl⟩ := Option.map_eq_some_iff.mp found
    have c := valid.course other q old
    cases c with
    | untaken free early =>
      apply Course.untaken free
      obtain eq | eq | eq | ⟨eq, _⟩ := early
      · exact .inl eq
      · exact .inr (.inl eq)
      · exact .inr (.inr (.inl eq))
      · exact .inr (.inr (.inr ⟨eq, rfl⟩))
    | nothing empty sent stages waits => exact .nothing empty sent stages waits
    | held nonempty taken => exact .held nonempty taken
    | sent nonempty free => exact .sent nonempty free
    | queued nonempty free delivery => exact .queued nonempty free delivery
    | returned nonempty free delivery same => exact .returned nonempty free delivery same
    | stamped nonempty free same idle => exact .stamped nonempty free same idle
    | done nonempty free same idle => exact .done nonempty free same idle
  · intro other events reader
    obtain ⟨p, line, found, taken, eq⟩ := valid.held other events reader
    refine ⟨{ p with pending := false }, line, ?_, taken, eq⟩
    rw [OrdMap.get?_mapValues, found]
    rfl

theorem valid_registry {registry : SubscriberRegistry} (valid : Valid handle s)
    (delivery : registry.delivery.isSome = s.registry.delivery.isSome) :
    Valid handle { s with registry := registry } := by
  constructor
  · intro other p found
    have old := valid.course other p found
    rw [← delivery] at old
    exact old
  · exact valid.held

theorem step_valid {a : Action} (valid : Valid handle s) (ok : Undisturbed handle s a)
    (hs : step handle valueLen textLen s a = some t) : Valid handle t := by
  cases a with
  | reserve r =>
    simp only [step] at hs
    split at hs
    · cases hs
    · rename_i fresh
      cases hs
      exact valid_reserve valid (by simpa using fresh)
  | request r a =>
    obtain ⟨q, entry, moved⟩ := Option.bind_eq_some_iff.mp hs
    obtain ⟨q', adv, taken, c⟩ := advance_course (valid.course r q entry) entry ok moved
    exact valid_advances valid entry adv taken c
  | readLine r events => exact valid_readLine valid ok hs
  | sendResult => exact valid_sendResult valid hs
  | clear =>
    cases hs
    exact valid_clear valid
  | connection op =>
    cases hs
    apply valid_registry valid
    rw [(s.registry.apply_same op).1]
  | otherFanout call =>
    cases hs
    exact valid_registry valid (s.registry.fanout_delivery call)

end Whdr.Dispatch
