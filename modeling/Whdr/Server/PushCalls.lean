import Whdr.Lib.FairLocks
import Whdr.Server.QueueCalls

/-! Producers on one queue against the loop of its connection (outbound_queue.rs,
subscriber_ws.rs), one atomic operation at a time: the two drop counters are outside the
queue's lock. An event is known by the number of its `push_event` call. -/
namespace Whdr.LagReport

open FairLocks (Before)
open OutboundQueue (overBudget eventFrame takePendingLag)

/-- Where a `push_event` call is. `rejectCounted` and `evictCounted` are between the two
increments of `record_drop`; from `evicting` to its return the call holds the lock. -/
inductive Call
  | entered (msg : SubServerMsg)
  | rejected
  | rejectCounted
  | evicting (msg : SubServerMsg)
  | evicted (msg : SubServerMsg) (victim : Nat)
  | evictCounted (msg : SubServerMsg) (victim : Nat)
  | returned
  deriving DecidableEq, Repr

/-- Where the loop of the connection is, with the frame it popped and the call that frame
comes from, if it is an event. -/
inductive Loop
  | selecting
  | popped (frame : Frame) (call : Option Nat)
  | lagTaken (dropped : Nat) (frame : Frame) (call : Option Nat)
  | writing (frame : Frame) (call : Option Nat)
  | ended
  deriving DecidableEq, Repr

/-- What the connection wrote to its sink. Welcome, replay and closing frames do not come
from the queue: they are `other`, as control frames are. -/
inductive Sent
  | live (call : Nat) (msg : SubServerMsg)
  | lagged (dropped : Nat)
  | other (msg : SubServerMsg)
  deriving DecidableEq, Repr

/-- `order`: the calls in the order they took effect, that is queued their event or came
back from rejecting it. `gone`: the events rejected or evicted. `lost`: the same events as
`lag_pending` got to count them. `taken`: what `take_pending_lag` returned. -/
structure State where
  queue : OutboundQueue
  holder : Option Nat
  calls : List Call
  loop : Loop
  sink : List Sent
  order : List Nat
  queued : List Nat
  delivered : List Nat
  gone : List Nat
  lost : List Nat
  taken : List Nat
  deriving DecidableEq, Repr

def fresh (maxEvents maxEventBytes : Nat) : State :=
  ⟨.new maxEvents maxEventBytes, none, [], .selecting, [], [], [], [], [], [], []⟩

inductive Action
  | offer (msg : SubServerMsg)
  | run (call : Nat)
  | pushControl (msg : SubServerMsg)
  | pop
  | take
  | send
  | sendFails
  | writeOther (msg : SubServerMsg)
  | close (msg : Option SubServerMsg)
  deriving DecidableEq, Repr

/-- The two halves of `record_drop`. -/
def countDropped (q : OutboundQueue) : OutboundQueue := { q with dropped := q.dropped + 1 }

def countLag (q : OutboundQueue) : OutboundQueue := { q with lagPending := q.lagPending + 1 }

def setCall (s : State) (i : Nat) (c : Call) : State := { s with calls := s.calls.set i c }

/-- The end of `push_event`: the frame goes to the back and the lock is given up. -/
def pushBack (s : State) (i : Nat) (msg : SubServerMsg) : State :=
  setCall { s with
    queue := { s.queue with inner := s.queue.inner ++ [eventFrame msg] }
    holder := none
    queued := s.queued ++ [i]
    order := s.order ++ [i] } i .returned

section
variable (textLen : SubServerMsg → Nat)

/-- The next operation of a call. -/
def runCall (s : State) (i : Nat) : Call → Option State
  | .entered msg =>
    if textLen msg > s.queue.maxEventBytes then
      some (setCall { s with gone := s.gone ++ [i] } i .rejected)
    else if s.holder = none then some (setCall { s with holder := some i } i (.evicting msg))
    else none
  | .rejected => some (setCall { s with queue := countDropped s.queue } i .rejectCounted)
  | .rejectCounted => some (setCall { s with
      queue := countLag s.queue
      lost := s.lost ++ [i]
      order := s.order ++ [i] } i .returned)
  | .evicting msg =>
    if overBudget textLen s.queue.inner (textLen msg) s.queue.maxEvents s.queue.maxEventBytes then
      match s.queue.inner.findIdx? Frame.isEvent with
      | none => some (pushBack s i msg)
      | some evictAt => some (setCall { s with
          queue := { s.queue with inner := s.queue.inner.eraseIdx evictAt }
          queued := s.queued.tail
          gone := s.gone ++ [s.queued.headD 0] } i (.evicted msg (s.queued.headD 0)))
    else some (pushBack s i msg)
  | .evicted msg victim =>
    some (setCall { s with queue := countDropped s.queue } i (.evictCounted msg victim))
  | .evictCounted msg victim => some (setCall { s with
      queue := countLag s.queue
      lost := s.lost ++ [victim] } i (.evicting msg))
  | .returned => none

def sent (frame : Frame) : Option Nat → Sent
  | some call => .live call frame.msg
  | none => .other frame.msg

/-- A frame that cannot be written ends the loop. -/
def step (s : State) : Action → Option State
  | .offer msg => some { s with calls := s.calls ++ [.entered msg] }
  | .run i => s.calls[i]?.bind (runCall textLen s i)
  | .pushControl msg =>
    if s.holder = none then some { s with queue := s.queue.pushControl msg } else none
  | .pop =>
    if s.loop = .selecting ∧ s.holder = none then
      s.queue.pop.map fun (frame, queue) =>
        if frame.isEvent then { s with
          queue := queue
          queued := s.queued.tail
          delivered := s.delivered ++ [s.queued.headD 0]
          loop := .popped frame (some (s.queued.headD 0)) }
        else { s with queue := queue, loop := .popped frame none }
    else none
  | .take =>
    match s.loop with
    | .popped frame call =>
      match takePendingLag s.queue with
      | (some dropped, queue) => some { s with
          queue := queue, taken := s.taken ++ [dropped], loop := .lagTaken dropped frame call }
      | (none, queue) => some { s with queue := queue, loop := .writing frame call }
    | _ => none
  | .send =>
    match s.loop with
    | .lagTaken dropped frame call =>
      some { s with sink := s.sink ++ [.lagged dropped], loop := .writing frame call }
    | .writing frame call => some { s with
        sink := s.sink ++ [sent frame call]
        loop := if frame.closing then .ended else .selecting }
    | _ => none
  | .sendFails =>
    match s.loop with
    | .lagTaken _ _ _ | .writing _ _ => some { s with loop := .ended }
    | _ => none
  | .writeOther msg =>
    if s.loop = .selecting then some { s with sink := s.sink ++ [.other msg] } else none
  | .close msg =>
    if s.loop = .selecting then
      some { s with sink := s.sink ++ (msg.map Sent.other).toList, loop := .ended }
    else none

end

/-! ## What is reported -/

/-- What the `lagged` frames among these writes count together. -/
def reported : List Sent → Nat
  | [] => 0
  | .lagged dropped :: rest => dropped + reported rest
  | .live _ _ :: rest | .other _ :: rest => reported rest

/-- The call is between the two increments of its `record_drop`. -/
def Call.halfway : Call → Bool
  | .rejectCounted | .evictCounted _ _ => true
  | _ => false

/-- How many calls are between the two increments of a `record_drop`. -/
def State.halfway (s : State) : Nat := s.calls.countP Call.halfway

/-- When an event was written, every drop of an event offered before it had been counted in
a `lagged` frame written before. The drops are counted in the order of `lost`. -/
def State.DropsReported (s : State) : Prop :=
  ∀ before i msg after, s.sink = before ++ .live i msg :: after →
    ∀ e, Before s.order e i → e ∈ s.gone → e ∈ s.lost.take (reported before)

variable {textLen : SubServerMsg → Nat} {s t : State} {i : Nat} {c d : Call} {msg : SubServerMsg}

/-! ## A call that nobody interrupts -/

theorem exec_run (at_i : s.calls[i]? = some c) (ran : runCall textLen s i c = some t) {n : Nat}
    {u : State} (rest : Runs.exec (step textLen) t (List.replicate n (.run i)) = some u) :
    Runs.exec (step textLen) s (List.replicate (n + 1) (.run i)) = some u := by
  rw [List.replicate_succ, Runs.exec_cons]
  simp only [step, at_i, Option.bind_some, ran, rest]

theorem getElem?_setCall_self {u : State} (inside : i < s.calls.length) (same : u.calls = s.calls) :
    (setCall u i d).calls[i]? = some d := by
  rw [setCall, same, List.getElem?_set_self inside]

/-- The rest of a call, from its loop on, is the eviction loop and the push. -/
theorem evicts_alone (passes : Nat) (at_i : s.calls[i]? = some (.evicting msg))
    (enough : s.queue.events.length ≤ passes) : ∃ n t,
    Runs.exec (step textLen) s (List.replicate n (.run i)) = some t ∧
      t.queue = { OutboundQueue.evict textLen (textLen msg) passes s.queue with
        inner := (OutboundQueue.evict textLen (textLen msg) passes s.queue).inner ++
          [eventFrame msg] } := by
  induction passes generalizing s with
  | zero =>
    have none : s.queue.inner.findIdx? Frame.isEvent = none := by
      rw [List.findIdx?_eq_none_iff]
      intro frame mem
      have nil := List.eq_nil_of_length_eq_zero (Nat.le_zero.mp enough)
      simpa using List.filter_eq_nil_iff.mp nil frame mem
    have ran : runCall textLen s i (.evicting msg) = some (pushBack s i msg) := by
      simp only [runCall, none, ite_self]
    exact ⟨1, pushBack s i msg, exec_run at_i ran rfl, rfl⟩
  | succ passes ih =>
    simp only [OutboundQueue.evict]
    split
    · rename_i exceeds
      split
      · rename_i none
        have ran : runCall textLen s i (.evicting msg) = some (pushBack s i msg) := by
          simp only [runCall, none, ite_self]
        exact ⟨1, pushBack s i msg, exec_run at_i ran rfl, rfl⟩
      · rename_i evictAt first
        have fewer : { s.queue with inner := s.queue.inner.eraseIdx evictAt }.recordDrop.events.length ≤
            passes := by
          have tail : { s.queue with inner := s.queue.inner.eraseIdx evictAt }.recordDrop.events =
              s.queue.events.tail := (OutboundQueue.filter_eraseIdx_first first).1
          rw [tail, List.length_tail]
          omega
        have inside := (List.getElem?_eq_some_iff.mp at_i).1
        let evicted := setCall { s with
          queue := { s.queue with inner := s.queue.inner.eraseIdx evictAt }
          queued := s.queued.tail
          gone := s.gone ++ [s.queued.headD 0] } i (.evicted msg (s.queued.headD 0))
        let counted := setCall { evicted with queue := countDropped evicted.queue } i
          (.evictCounted msg (s.queued.headD 0))
        let recorded := setCall { counted with
          queue := countLag counted.queue
          lost := counted.lost ++ [s.queued.headD 0] } i (.evicting msg)
        have ran : runCall textLen s i (.evicting msg) = some evicted := by
          simp only [runCall, exceeds, first, ↓reduceIte, evicted]
        have insideE : i < evicted.calls.length := by simpa [evicted, setCall] using inside
        have insideC : i < counted.calls.length := by simpa [counted, setCall] using insideE
        obtain ⟨n, t, rest, queue⟩ := ih (s := recorded) (getElem?_setCall_self insideC rfl) fewer
        have atE : evicted.calls[i]? = some (.evicted msg (s.queued.headD 0)) :=
          getElem?_setCall_self inside rfl
        have atC : counted.calls[i]? = some (.evictCounted msg (s.queued.headD 0)) :=
          getElem?_setCall_self insideE rfl
        exact ⟨n + 3, t, exec_run at_i ran (exec_run atE rfl (exec_run atC rfl rest)), queue⟩
    · rename_i fits
      have ran : runCall textLen s i (.evicting msg) = some (pushBack s i msg) := by
        simp only [runCall, fits, Bool.false_eq_true, ↓reduceIte]
      exact ⟨1, pushBack s i msg, exec_run at_i ran rfl, rfl⟩

/-- A call that nobody interrupts does what `pushEvent` does. -/
theorem push_alone (at_i : s.calls[i]? = some (.entered msg)) (free : s.holder = none) : ∃ n t,
    Runs.exec (step textLen) s (List.replicate n (.run i)) = some t ∧
      t.queue = s.queue.pushEvent textLen msg := by
  have inside := (List.getElem?_eq_some_iff.mp at_i).1
  unfold OutboundQueue.pushEvent
  split
  · rename_i big
    let rejected := setCall { s with gone := s.gone ++ [i] } i .rejected
    let counted := setCall { rejected with queue := countDropped rejected.queue } i .rejectCounted
    let recorded := setCall { counted with
      queue := countLag counted.queue
      lost := counted.lost ++ [i]
      order := counted.order ++ [i] } i .returned
    have ran : runCall textLen s i (.entered msg) = some rejected := by
      simp only [runCall, big, ↓reduceIte, rejected]
    have insideR : i < rejected.calls.length := by simpa [rejected, setCall] using inside
    have atR : rejected.calls[i]? = some .rejected := getElem?_setCall_self inside rfl
    have atC : counted.calls[i]? = some .rejectCounted := getElem?_setCall_self insideR rfl
    have last : Runs.exec (step textLen) recorded (List.replicate 0 (.run i)) = some recorded := rfl
    exact ⟨3, recorded, exec_run at_i ran (exec_run atR rfl (exec_run atC rfl last)), rfl⟩
  · rename_i small
    have ran : runCall textLen s i (.entered msg) =
        some (setCall { s with holder := some i } i (.evicting msg)) := by
      simp only [runCall, small, free, ↓reduceIte]
    obtain ⟨n, t, rest, queue⟩ := @evicts_alone textLen _ _ _ s.queue.inner.length
      (getElem?_setCall_self (d := .evicting msg) (u := { s with holder := some i }) inside rfl)
      (List.length_filter_le _ _)
    exact ⟨n + 1, t, exec_run at_i ran rest, queue⟩

end Whdr.LagReport
