import Whdr.Lib.Runs
import Whdr.Server.DispatchValid

/-! The events of an accepted result are fanned out exactly once, as long as nothing ends
the request's future between the moment the reader took the entry and the push. -/
namespace Whdr.Dispatch

open DeliveryLog (AppendFault StoredEvent Shared append_ok append_error)
open Lifecycle (ExtHandle)
open Runs (Reaches exec guarded reaches_of_exec)

variable {handle : ExtHandle} {valueLen : StoredEvent → Nat} {textLen : SubServerMsg → Nat}
  {s t : State} {r : Uuid} {q : Request} {line : List Event}

theorem reachable_valid
    (run : Reaches Starts (step handle valueLen textLen) (Undisturbed handle) s) :
    Valid handle s := by
  apply run.invariant (Valid handle)
  · intro s starts
    constructor
    · intro r q entry
      rw [starts.2] at entry
      cases entry
    · intro r events reader
      rw [starts.1] at reader
      cases reader
  · intro s a t _ valid ok hs
    exact step_valid valid ok hs

theorem once_of_settled (valid : Valid handle s) (entry : s.requests.get? r = some q)
    (taken : q.taken = some line) (settled : Settled s r q) :
    FannedOutOnce s.registry.delivery.isSome (owned handle line) q := by
  obtain ⟨stage, free, _⟩ := settled
  have c := valid.course r q entry
  unfold FannedOutOnce
  cases c with
  | untaken => cases taken
  | nothing empty =>
    cases taken
    rw [if_pos empty]
    exact ⟨rfl, rfl⟩
  | done nonempty _ same _ =>
    cases taken
    rw [if_neg nonempty]
    exact ⟨_, same, rfl, rfl⟩
  | held | sent | queued | returned | stamped => cases stage

theorem at_most_once (valid : Valid handle s) (entry : s.requests.get? r = some q) :
    q.appended.length ≤ 1 ∧ q.offered.length ≤ 1 := by
  have c := valid.course r q entry
  cases c with
  | stamped | done =>
    dsimp only
    split <;> simp
  | untaken | nothing | held | sent | queued | returned => simp

theorem untaken_offers_nothing (valid : Valid handle s) (entry : s.requests.get? r = some q)
    (untaken : q.taken = none) : q.appended = [] ∧ q.offered = [] := by
  have c := valid.course r q entry
  cases c with
  | untaken => exact ⟨rfl, rfl⟩
  | nothing | held | sent | queued | returned | stamped | done => cases untaken

/-! ## What is recorded was done -/

theorem records_quiet {a : Action} {q' : Request} (entry : s.requests.get? r = some q)
    (subscribers : t.registry.subscribers = s.registry.subscribers) (table : t.table = s.table)
    (offered : q'.offered = q.offered) (appended : q'.appended = q.appended) :
    Records textLen s a t r q' := by
  refine ⟨[], [], ?_, ?_, fun _ => ⟨fun id sub conn => ?_, ?_⟩, fun _ => ⟨rfl, rfl⟩⟩
  · rw [entry, offered, List.append_nil]
    rfl
  · rw [entry, appended, List.append_nil]
    rfl
  · rw [subscribers, conn]
    rfl
  · rw [table]
    exact Option.map_id'.symm

theorem records_job {fault : Option AppendFault} {mint : Nat → Uuid} {tsMs : Nat}
    {events : List Event} (entry : s.requests.get? r = some q)
    (hs : appended valueLen s r q events mint tsMs fault = some t) :
    ∃ q', t.requests = s.requests.insert r q' ∧
      Records textLen s (.request r (.runJob mint tsMs fault)) t r q' := by
  unfold appended at hs
  split at hs
  · cases hs
  · rename_i log isLog
    split at hs
    · rename_i rows log' result
      cases hs
      obtain ⟨-, db, -⟩ := append_ok result
      refine ⟨_, rfl, [], [rows], ?_, ?_, fun _ => ⟨fun id sub conn => conn, ?_⟩,
        fun other => absurd rfl other⟩
      · rw [entry, List.append_nil]
        rfl
      · rw [entry]
        rfl
      · simp only [State.table, State.put, isLog, Option.map_some, List.flatten_cons,
          List.flatten_nil, List.append_nil]
        exact congrArg some db
    · rename_i f log' result
      cases hs
      obtain rfl := append_error result
      refine ⟨_, rfl, records_quiet entry rfl ?_ rfl rfl⟩
      simp only [State.table, State.put, isLog]

theorem advance_records {a : RequestAction} (entry : s.requests.get? r = some q)
    (hs : advance handle valueLen textLen s r q a = some t) :
    ∃ q', t.requests = s.requests.insert r q' ∧ Records textLen s (.request r a) t r q' := by
  cases a with
  | send | sendFails | dead | timeout | removePending | cancel =>
    simp only [advance] at hs
    split at hs
    · cases hs
      exact ⟨_, rfl, records_quiet entry rfl rfl rfl rfl⟩
    · cases hs
  | receive mint tsMs =>
    simp only [advance] at hs
    split at hs
    · cases hs
      simp only [received]
      split
      · exact ⟨_, rfl, records_quiet entry rfl rfl rfl rfl⟩
      · split
        · exact ⟨_, rfl, records_quiet entry rfl rfl rfl rfl⟩
        · exact ⟨_, rfl, records_quiet entry rfl rfl rfl rfl⟩
    · cases hs
  | runJob mint tsMs fault =>
    simp only [advance] at hs
    split at hs
    · exact records_job entry hs
    · cases hs
  | joinJob mint tsMs =>
    simp only [advance] at hs
    split at hs
    · rename_i result _ _
      cases hs
      cases result with
      | ok rows => exact ⟨_, rfl, records_quiet entry rfl rfl rfl rfl⟩
      | error f => exact ⟨_, rfl, records_quiet entry rfl rfl rfl rfl⟩
    · cases hs
  | push =>
    simp only [advance] at hs
    split at hs
    · rename_i rows _
      cases hs
      refine ⟨_, rfl, [rows], [], ?_, ?_, fun _ => ⟨fun id sub conn => ?_, ?_⟩,
        fun other => absurd rfl other⟩
      · rw [entry]
        rfl
      · rw [entry, List.append_nil]
        rfl
      · rw [List.flatMap_cons, List.flatMap_nil, List.append_nil]
        exact SubscriberRegistry.deliver_entry conn rows
      · exact Option.map_id'.symm
    · cases hs

/-- The step has added nothing to a record. -/
def SameRecord (s t : State) : Prop :=
  ∀ r q', t.requests.get? r = some q' →
    q'.offered = ((s.requests.get? r).getD newRequest).offered ∧
      q'.appended = ((s.requests.get? r).getD newRequest).appended

theorem sameRecord_of_eq (requests : t.requests = s.requests) : SameRecord s t := by
  intro r q' entry
  rw [requests] at entry
  rw [entry]
  exact ⟨rfl, rfl⟩

theorem sameRecord_insert {q' : Request} (requests : t.requests = s.requests.insert r q')
    (offered : q'.offered = ((s.requests.get? r).getD newRequest).offered)
    (appended : q'.appended = ((s.requests.get? r).getD newRequest).appended) : SameRecord s t := by
  intro other p entry
  rw [requests, OrdMap.get?_insert] at entry
  split at entry
  · rename_i same
    cases entry
    exact same ▸ ⟨offered, appended⟩
  · rw [entry]
    exact ⟨rfl, rfl⟩

/-- The steps of no request leave the records. -/
theorem other_record {a : Action} (other : a.request? = none)
    (hs : step handle valueLen textLen s a = some t) : SameRecord s t := by
  cases a with
  | request r a => cases other
  | reserve r =>
    simp only [step] at hs
    split at hs
    · cases hs
    · rename_i fresh
      cases hs
      have none : s.requests.get? r = none := by simpa using fresh
      exact sameRecord_insert rfl (by rw [none]; rfl) (by rw [none]; rfl)
  | readLine r events =>
    simp only [step, readLine] at hs
    split at hs
    · cases hs
    · split at hs
      · cases hs
        exact sameRecord_of_eq rfl
      · rename_i q entry
        split at hs
        · cases hs
        · split at hs
          · cases hs
            exact sameRecord_of_eq rfl
          · cases hs
            exact sameRecord_insert rfl (by rw [entry]; rfl) (by rw [entry]; rfl)
  | sendResult =>
    simp only [step, sendResult] at hs
    split at hs
    · cases hs
    · split at hs
      · cases hs
      · rename_i q entry
        split at hs
        · cases hs
          exact sameRecord_of_eq rfl
        · cases hs
          exact sameRecord_insert rfl (by rw [entry]; rfl) (by rw [entry]; rfl)
  | clear =>
    cases hs
    intro r q' entry
    rw [OrdMap.get?_mapValues] at entry
    obtain ⟨q, found, rfl⟩ := Option.map_eq_some_iff.mp entry
    rw [found]
    exact ⟨rfl, rfl⟩
  | connection op =>
    cases hs
    exact sameRecord_of_eq rfl
  | otherFanout call =>
    cases hs
    exact sameRecord_of_eq rfl

theorem step_records {a : Action} {q' : Request}
    (hs : step handle valueLen textLen s a = some t) (entry : t.requests.get? r = some q') :
    Records textLen s a t r q' := by
  have quiet : a.request? ≠ some r → q'.offered = ((s.requests.get? r).getD newRequest).offered →
      q'.appended = ((s.requests.get? r).getD newRequest).appended → Records textLen s a t r q' :=
    fun other offered appended => ⟨[], [], by rw [offered, List.append_nil],
      by rw [appended, List.append_nil], fun own => absurd own other, fun _ => ⟨rfl, rfl⟩⟩
  cases own : a.request? with
  | none =>
    obtain ⟨offered, appended⟩ := other_record own hs r q' entry
    exact quiet (by rw [own]; nofun) offered appended
  | some other =>
    cases a with
    | request r' a =>
      cases own
      obtain ⟨q, found, hs⟩ := Option.bind_eq_some_iff.mp hs
      obtain ⟨q₁, requests, records⟩ := advance_records found hs
      rw [requests, OrdMap.get?_insert] at entry
      split at entry
      · rename_i same
        cases entry
        exact same ▸ records
      · rename_i apart
        apply quiet (fun eq => apart (Option.some.inj eq).symm)
        · rw [entry]
          rfl
        · rw [entry]
          rfl
    | reserve | readLine | sendResult | clear | connection | otherFanout => cases own

/-! ## A taken result can always be brought to its end -/

def Stage.rank : Stage → Nat
  | .sending => 4
  | .waiting | .timedOut => 3
  | .appending _ => 2
  | .stamped _ => 1
  | .finished => 0

/-- The steps its future and its append still have to make. -/
def Request.left (q : Request) : Nat :=
  2 * q.stage.rank + if q.queuedEvents.isSome then 1 else 0

theorem left_less {q' : Request} (job : q'.job = q.job) (less : q'.stage.rank < q.stage.rank) :
    q'.left < q.left := by
  have same : q'.queuedEvents = q.queuedEvents := by
    unfold Request.queuedEvents
    rw [job]
  unfold Request.left
  rw [same]
  omega

/-- With the one the reader has to make. -/
def work (s : State) (r : Uuid) (q : Request) : Nat := q.left + if s.holds r then 1 else 0

/-- Some allowed step takes the request on without losing its line. -/
def Moves (handle : ExtHandle) (valueLen : StoredEvent → Nat) (textLen : SubServerMsg → Nat)
    (s : State) (r : Uuid) (q : Request) : Prop :=
  ∃ a t q', Undisturbed handle s a ∧ step handle valueLen textLen s a = some t ∧
    t.requests.get? r = some q' ∧ q'.taken = q.taken ∧ work t r q' < work s r q

theorem moves_held (entry : s.requests.get? r = some q) (held : s.holds r = true) :
    Moves handle valueLen textLen s r q := by
  cases reader : s.reader with
  | none =>
    rw [not_holds_of_none reader] at held
    cases held
  | some taken =>
    obtain ⟨other, events⟩ := taken
    rw [holds_of_reader reader] at held
    have same : other = r := by simpa using held
    subst same
    by_cases stage : q.stage = .finished
    · refine ⟨.sendResult, { s with reader := none }, q, trivial, ?_, entry, rfl, ?_⟩
      · simp [step, sendResult, reader, entry, stage]
      · simp [work, State.holds, reader]
    · refine ⟨.sendResult, { s with reader := none }.put other { q with slot := some events },
        { q with slot := some events }, trivial, ?_, OrdMap.get?_insert_self _ _ _, rfl, ?_⟩
      · simp [step, sendResult, reader, entry, stage]
      · have same : ({ q with slot := some events } : Request).left = q.left := rfl
        simp [work, same, State.holds, State.put, reader]

theorem moves_advance {a : RequestAction} {q' : Request} (entry : s.requests.get? r = some q)
    (ok : Undisturbed handle s (.request r a))
    (moved : advance handle valueLen textLen s r q a = some t) (adv : Advances s r q' t)
    (taken : q'.taken = q.taken) (less : q'.left < q.left) :
    Moves handle valueLen textLen s r q := by
  refine ⟨.request r a, t, q', ok, ?_, ?_, taken, ?_⟩
  · simp only [step, entry, Option.bind_some, moved]
  · rw [adv.requests, OrdMap.get?_insert_self]
  · unfold work
    rw [holds_congr adv.reader]
    omega

/-- A result received is dropped when it is empty, else on its way to the log or stamped. -/
theorem received_left (events : List Event) (mint : Nat → Uuid) (tsMs : Nat) (idle : q.job = none) :
    ∃ q', Advances s r q' (received handle s r q events mint tsMs) ∧ q'.taken = q.taken ∧
      q'.left ≤ 5 := by
  simp only [received]
  split
  · exact ⟨_, ⟨rfl, rfl, rfl⟩, rfl, by simp [Request.left, Request.queuedEvents, Stage.rank, idle]⟩
  · split
    · exact ⟨_, ⟨rfl, rfl, rfl⟩, rfl, by simp [Request.left, Request.queuedEvents, Stage.rank]⟩
    · refine ⟨_, ⟨rfl, rfl, rfl⟩, rfl, ?_⟩
      simp [Request.left, Request.queuedEvents, Stage.rank, idle]

theorem moves_sent {events : List Event} (entry : s.requests.get? r = some q)
    (stage : q.stage = .waiting) (slot : q.slot = some events) (idle : q.job = none) :
    Moves handle valueLen textLen s r q := by
  have moved : advance handle valueLen textLen s r q (.receive id 0) =
      some (received handle s r q events id 0) := by
    simp only [advance, stage, slot]
  obtain ⟨q', adv, taken, le⟩ := @received_left handle s r q events id 0 idle
  apply moves_advance entry _ moved adv taken
  · have left : q.left = 6 := by simp [Request.left, Request.queuedEvents, Stage.rank, stage, idle]
    omega
  · trivial

theorem moves_queued {events fallback : List Event} (entry : s.requests.get? r = some q)
    (stage : q.stage = .appending fallback) (job : q.job = some (.queued events))
    (nonempty : events ≠ []) (delivery : s.registry.delivery.isSome = true) :
    Moves handle valueLen textLen s r q := by
  obtain ⟨log, isLog⟩ := Option.isSome_iff_exists.mp delivery
  have ok : Undisturbed handle s (.request r (.runJob id 0 none)) := fun _ _ _ _ => rfl
  have moved : advance handle valueLen textLen s r q (.runJob id 0 none) =
      appended valueLen s r q events id 0 none := by
    simp only [advance, job]
  simp only [appended, isLog, Shared.append, nonempty, ↓reduceIte, Shared.appendBlocking,
    Option.filter_none] at moved
  apply moves_advance entry ok moved ⟨rfl, rfl, by rw [isLog]; rfl⟩
  · rfl
  · simp [Request.left, Request.queuedEvents, stage, job]

theorem moves_returned {fallback : List Event} {rows : List StampedEvent}
    (entry : s.requests.get? r = some q) (stage : q.stage = .appending fallback)
    (job : q.job = some (.returned (.ok rows))) : Moves handle valueLen textLen s r q := by
  have moved : advance handle valueLen textLen s r q (.joinJob id 0) =
      some (s.put r { q with stage := .stamped rows }) := by
    simp only [advance, stage, job, joined]
  apply moves_advance entry _ moved (advances_put s r _)
  · rfl
  · exact left_less rfl (by simp [stage, Stage.rank])
  · trivial

theorem moves_stamped {rows : List StampedEvent} (entry : s.requests.get? r = some q)
    (stage : q.stage = .stamped rows) : Moves handle valueLen textLen s r q := by
  have moved : advance handle valueLen textLen s r q .push =
      some ({ s with registry := s.registry.deliver textLen rows }.put
        r { q with stage := .finished, offered := q.offered ++ [rows] }) := by
    simp only [advance, stage]
  apply moves_advance entry _ moved ⟨rfl, rfl, rfl⟩
  · rfl
  · exact left_less rfl (by simp [stage, Stage.rank])
  · trivial

theorem moves_timedOut (entry : s.requests.get? r = some q) (stage : q.stage = .timedOut) :
    Moves handle valueLen textLen s r q := by
  have moved : advance handle valueLen textLen s r q .removePending =
      some (s.put r { q with pending := false, slot := none, stage := .finished }) := by
    simp only [advance, stage, ↓reduceIte]
  apply moves_advance entry _ moved (advances_put s r _)
  · rfl
  · exact left_less rfl (by simp [stage, Stage.rank])
  · trivial

theorem queuedEvents_none (idle : ∀ events, q.job ≠ some (.queued events)) :
    q.queuedEvents = none := by
  unfold Request.queuedEvents
  split
  · rename_i events job
    exact absurd job (idle events)
  · rfl

/-- A request whose result was taken is settled, or can move on. -/
theorem settled_or_moves (valid : Valid handle s) (entry : s.requests.get? r = some q)
    (taken : q.taken = some line) : Settled s r q ∨ Moves handle valueLen textLen s r q := by
  by_cases held : s.holds r = true
  · exact .inr (moves_held entry held)
  · have free : s.holds r = false := by simpa using held
    have c := valid.course r q entry
    cases c with
    | untaken => cases taken
    | nothing _ sent stages waits =>
      obtain rfl | rfl | rfl := stages
      · obtain rfl | rfl := sent
        · exact absurd (waits rfl rfl) held
        · exact .inr (moves_sent entry rfl rfl rfl)
      · exact .inr (moves_timedOut entry rfl)
      · exact .inl ⟨rfl, free, rfl⟩
    | held _ holding => exact absurd holding held
    | sent => exact .inr (moves_sent entry rfl rfl rfl)
    | queued nonempty _ delivery => exact .inr (moves_queued entry rfl rfl nonempty delivery)
    | returned => exact .inr (moves_returned entry rfl rfl)
    | stamped => exact .inr (moves_stamped entry rfl)
    | done _ _ _ idle => exact .inl ⟨rfl, free, queuedEvents_none idle⟩

/-- Undisturbed steps bring every taken result to its end. -/
theorem settles (n : Nat) (valid : Valid handle s) (entry : s.requests.get? r = some q)
    (taken : q.taken = some line) (bound : work s r q ≤ n) :
    ∃ t q', Reaches (· = s) (step handle valueLen textLen) (Undisturbed handle) t ∧
      t.requests.get? r = some q' ∧ q'.taken = some line ∧ Settled t r q' := by
  induction n generalizing s q with
  | zero =>
    obtain settled | ⟨_, _, _, _, _, _, _, less⟩ :=
      @settled_or_moves handle valueLen textLen s r q line valid entry taken
    · exact ⟨s, q, .start rfl, entry, taken, settled⟩
    · omega
  | succ n ih =>
    obtain settled | ⟨a, t, q', ok, hs, entry', kept, less⟩ :=
      @settled_or_moves handle valueLen textLen s r q line valid entry taken
    · exact ⟨s, q, .start rfl, entry, taken, settled⟩
    · obtain ⟨u, p, run, found, takenLine, settled⟩ :=
        ih (step_valid valid ok hs) entry' (kept.trans taken) (by omega)
      exact ⟨u, p, run.after a ok hs, found, takenLine, settled⟩

/-- In an undisturbed run: a request whose result the reader took is fanned out exactly
once when it is settled, and it can always be settled; no other request fans anything
out; and a line that finds no entry changes nothing. What is counted is what is done to the queues
and to the log. -/
theorem accepted_fanned_out_once (handle : ExtHandle) (valueLen : StoredEvent → Nat)
    (textLen : SubServerMsg → Nat)
    (run : Reaches Starts (step handle valueLen textLen) (Undisturbed handle) s) :
    (∀ r q, s.requests.get? r = some q →
      q.appended.length ≤ 1 ∧ q.offered.length ≤ 1 ∧
      (q.taken = none → q.appended = [] ∧ q.offered = []) ∧
      ∀ line, q.taken = some line →
        (Settled s r q → FannedOutOnce s.registry.delivery.isSome (owned handle line) q) ∧
        ∃ t q', Reaches (· = s) (step handle valueLen textLen) (Undisturbed handle) t ∧
          t.requests.get? r = some q' ∧ q'.taken = some line ∧ Settled t r q') ∧
    (∀ r events, s.reader = none →
      (∀ q ∈ s.requests.get? r, q.stage ≠ .sending ∧ q.pending = false) →
      step handle valueLen textLen s (.readLine r events) = some s) ∧
    ∀ a t r q', step handle valueLen textLen s a = some t → t.requests.get? r = some q' →
      Records textLen s a t r q' := by
  have valid := reachable_valid run
  refine ⟨?_, ?_, fun _ _ _ _ => step_records⟩
  · intro r q entry
    obtain ⟨appends, offers⟩ := at_most_once valid entry
    refine ⟨appends, offers, untaken_offers_nothing valid entry, ?_⟩
    intro line taken
    constructor
    · exact once_of_settled valid entry taken
    · exact settles (work s r q) valid entry taken (Nat.le_refl _)
  · intro r events idle late
    simp only [step, readLine, idle, Option.isSome_none, Bool.false_eq_true, ↓reduceIte]
    cases entry : s.requests.get? r with
    | none => rfl
    | some q =>
      obtain ⟨sent, gone⟩ := late q entry
      simp only [sent, gone, ↓reduceIte]

/-! ## One request on a server with a log -/

def github : ExtHandle := ⟨"github", "github", 1, ["github"], []⟩

def loggedServer : State :=
  ⟨.withDelivery (DeliveryLog.recover (fun _ => 90) ⟨86400, 2 ^ 30, 1000000⟩ .empty), 0, none,
    .empty⟩

/-- Request 7 is sent, answered with one event and received; its append is queued. -/
def oneResult : List Action :=
  [.reserve 7, .request 7 .send, .readLine 7 [⟨"github.push", "e30="⟩], .sendResult,
    .request 7 (.receive id 1000)]

/-- What the reader took for request 7, the batches it committed and offered, and whether
it is settled. -/
def summary (s : State) :
    Option (Option (List Event) × List (List Event) × List (List Event) × Bool) :=
  (s.requests.get? 7).map fun q => (q.taken, q.appended.map (·.map eventOf),
    q.offered.map (·.map eventOf), decide (Settled s 7 q))

theorem accepted_fanned_out_once_push :
    ∃ s q, exec (guarded (Undisturbed github) (step github (fun _ => 90) (fun _ => 120)))
        loggedServer (oneResult ++ [.request 7 (.runJob id 1000 none),
          .request 7 (.joinJob id 1000), .request 7 .push]) = some s ∧
      s.requests.get? 7 = some q ∧ Settled s 7 q ∧
      FannedOutOnce s.registry.delivery.isSome (owned github [⟨"github.push", "e30="⟩]) q := by
  have run : (exec (guarded (Undisturbed github) (step github (fun _ => 90) (fun _ => 120)))
      loggedServer (oneResult ++ [.request 7 (.runJob id 1000 none),
        .request 7 (.joinJob id 1000), .request 7 .push])).map summary =
      some (some (some [⟨"github.push", "e30="⟩], [[⟨"github.push", "e30="⟩]],
        [[⟨"github.push", "e30="⟩]], true)) := by decide
  obtain ⟨s, hs, seen⟩ := Option.map_eq_some_iff.mp run
  obtain ⟨q, entry, eq⟩ := Option.map_eq_some_iff.mp seen
  obtain ⟨taken, rest⟩ := Prod.mk.inj eq
  have settled : Settled s 7 q := of_decide_eq_true (Prod.mk.inj (Prod.mk.inj rest).2).2
  have once := accepted_fanned_out_once github (fun _ => 90) (fun _ => 120)
    (reaches_of_exec _ (.start ⟨rfl, rfl⟩) hs)
  exact ⟨s, q, hs, entry, settled, ((once.1 7 q entry).2.2.2 _ taken).1 settled⟩

/-- The client disconnects while the append runs: the event is committed, and offered to
nobody. -/
theorem committed_event_not_offered :
    ¬ ∀ (handle : ExtHandle) (valueLen : StoredEvent → Nat) (textLen : SubServerMsg → Nat)
      (s : State), Reaches Starts (step handle valueLen textLen) (fun _ _ => True) s →
      ∀ r q line, s.requests.get? r = some q → q.taken = some line → Settled s r q →
        FannedOutOnce s.registry.delivery.isSome (owned handle line) q := by
  intro claim
  have run : (exec (guarded (fun _ _ => True) (step github (fun _ => 90) (fun _ => 120)))
      loggedServer (oneResult ++ [.request 7 .cancel, .request 7 (.runJob id 1000 none)])).map
      summary = some (some (some [⟨"github.push", "e30="⟩], [[⟨"github.push", "e30="⟩]], [],
        true)) := by decide
  obtain ⟨s, hs, seen⟩ := Option.map_eq_some_iff.mp run
  obtain ⟨q, entry, eq⟩ := Option.map_eq_some_iff.mp seen
  obtain ⟨taken, rest⟩ := Prod.mk.inj eq
  obtain ⟨_, rest⟩ := Prod.mk.inj rest
  obtain ⟨offered, isSettled⟩ := Prod.mk.inj rest
  have once := claim github (fun _ => 90) (fun _ => 120) s
    (reaches_of_exec _ (.start ⟨rfl, rfl⟩) hs) 7 q _ entry taken (of_decide_eq_true isSettled)
  have nonempty : owned github [⟨"github.push", "e30="⟩] ≠ [] := by decide
  unfold FannedOutOnce at once
  rw [if_neg nonempty] at once
  obtain ⟨rows, _, one, _⟩ := once
  rw [one] at offered
  cases offered

end Whdr.Dispatch
