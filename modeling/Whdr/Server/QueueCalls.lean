import Whdr.Server.OutboundQueue

/-! Any sequence of calls on one queue: what is queued, what came out and what was
dropped, told from the calls alone. -/
namespace Whdr.OutboundQueue

/-- A pop of an empty queue waits: as a call it does nothing. -/
inductive Call
  | pushEvent (msg : SubServerMsg)
  | pushControl (msg : SubServerMsg)
  | pop
  deriving DecidableEq, Repr

def events (q : OutboundQueue) : List Frame := q.inner.filter Frame.isEvent

def controls (q : OutboundQueue) : List Frame := q.inner.filter fun frame => !frame.isEvent

def controlFrame (msg : SubServerMsg) : Frame :=
  ⟨msg, match msg with
    | .closing _ => true
    | _ => false, false⟩

section
variable (textLen : SubServerMsg → Nat)

def bytes (frames : List Frame) : Nat := (frames.map fun frame => textLen frame.msg).sum

/-- These events and one more of `incoming` bytes are within both budgets. -/
def Fits (q : OutboundQueue) (incoming : Nat) (events : List Frame) : Prop :=
  events.length + 1 ≤ q.maxEvents ∧ bytes textLen events + incoming ≤ q.maxEventBytes

/-- The queue after one call, and the frames popped so far. -/
def call : OutboundQueue × List Frame → Call → OutboundQueue × List Frame
  | (q, popped), .pushEvent msg => (q.pushEvent textLen msg, popped)
  | (q, popped), .pushControl msg => (q.pushControl msg, popped)
  | (q, popped), .pop =>
    match q.pop with
    | none => (q, popped)
    | some (frame, q) => (q, popped ++ [frame])

def calls (q : OutboundQueue) (cs : List Call) : OutboundQueue × List Frame :=
  cs.foldl (call textLen) (q, [])

/-- The frame a call puts at the back of a queue with this byte budget. -/
def Call.pushed (maxEventBytes : Nat) : Call → List Frame
  | .pushEvent msg => if textLen msg ≤ maxEventBytes then [eventFrame msg] else []
  | .pushControl msg => [controlFrame msg]
  | .pop => []

def Call.isPushEvent : Call → Bool
  | .pushEvent _ => true
  | .pushControl _ | .pop => false

/-- The message `push_event` is called with. -/
def Call.offer? : Call → Option SubServerMsg
  | .pushEvent msg => some msg
  | .pushControl _ | .pop => none

/-- The frames pushed and of acceptable size, in push order. -/
def pushed (maxEventBytes : Nat) (cs : List Call) : List Frame :=
  cs.flatMap (Call.pushed textLen maxEventBytes)

/-- What a history of calls with `pushed` acceptable frames and `offers` calls of
`push_event` has made of a queue. `gone` are the events no longer queued. -/
structure Accounts (maxEvents maxEventBytes offers : Nat) (pushed popped : List Frame)
    (q : OutboundQueue) : Prop where
  limits : q.maxEvents = max maxEvents 1 ∧ q.maxEventBytes = max maxEventBytes 1
  count : q.events.length ≤ max maxEvents 1
  size : bytes textLen q.events ≤ max maxEventBytes 1
  controls : pushed.filter (fun frame => !frame.isEvent) =
    popped.filter (fun frame => !frame.isEvent) ++ q.controls
  order : (popped ++ q.inner).Sublist pushed
  recent : ∃ gone, pushed.filter Frame.isEvent = gone ++ q.events ∧
    (popped.filter Frame.isEvent).Sublist gone
  delivered : q.delivered = (popped.filter Frame.isEvent).length
  accounted : offers = q.delivered + q.dropped + q.events.length

/-- A further event of acceptable size takes out the oldest events only, and no more of
them than it needs. -/
def EvictsLeast (q : OutboundQueue) : Prop :=
  ∀ msg, textLen msg ≤ q.maxEventBytes → ∃ k,
    (q.pushEvent textLen msg).events = q.events.drop k ++ [eventFrame msg] ∧
      ∀ j < k, ¬ Fits textLen q (textLen msg) (q.events.drop j)

end

variable {textLen : SubServerMsg → Nat} {q : OutboundQueue} {incoming k : Nat}

theorem foldl_events (msgs : List SubServerMsg) (q : OutboundQueue) (popped : List Frame) :
    (msgs.map Call.pushEvent).foldl (call textLen) (q, popped) =
      (q.pushEvents textLen msgs, popped) := by
  induction msgs generalizing q with
  | nil => rfl
  | cons msg rest ih =>
    rw [List.map_cons, List.foldl_cons]
    exact ih _

theorem offer?_events (msgs : List SubServerMsg) :
    (msgs.map Call.pushEvent).filterMap Call.offer? = msgs := by
  rw [List.filterMap_map]
  exact List.filterMap_some

/-! ## Eviction -/

theorem filter_eraseIdx_first {α : Type*} {p : α → Bool} {l : List α} {i : Nat}
    (first : l.findIdx? p = some i) :
    (l.eraseIdx i).filter p = (l.filter p).tail ∧
      (l.eraseIdx i).filter (fun x => !p x) = l.filter (fun x => !p x) ∧
      l.filter p ≠ [] := by
  induction l generalizing i with
  | nil => cases first
  | cons x rest ih =>
    rw [List.findIdx?_cons] at first
    cases hx : p x with
    | true =>
      simp only [hx, if_true, Option.some.injEq] at first
      subst first
      simp [hx]
    | false =>
      simp only [hx, Bool.false_eq_true, if_false, Option.map_eq_some_iff] at first
      obtain ⟨j, found, rfl⟩ := first
      obtain ⟨events, others, some⟩ := ih found
      simp [hx, events, others, some]

theorem overBudget_iff :
    overBudget textLen q.inner incoming q.maxEvents q.maxEventBytes = true ↔
      q.events ≠ [] ∧ ¬ Fits textLen q incoming q.events := by
  unfold overBudget Fits events bytes
  by_cases none : (q.inner.filter Frame.isEvent).length = 0
  · simp [List.eq_nil_of_length_eq_zero none]
  · have some : q.inner.filter Frame.isEvent ≠ [] := by
      rintro nil
      simp [nil] at none
    simp only [none, if_false, Bool.or_eq_true, decide_eq_true_eq, ne_eq, some, not_false_eq_true,
      true_and, not_and_or]
    omega

/-- What the eviction loop took: the `k` oldest events, one drop each, and no fewer would
have made room. -/
structure Evicted (textLen : SubServerMsg → Nat) (q : OutboundQueue) (incoming k : Nat) (r : OutboundQueue) : Prop where
  events : r.events = q.events.drop k
  few : k ≤ q.events.length
  controls : r.controls = q.controls
  dropped : r.dropped = q.dropped + k
  delivered : r.delivered = q.delivered
  limits : r.maxEvents = q.maxEvents ∧ r.maxEventBytes = q.maxEventBytes
  needed : ∀ j < k, ¬ Fits textLen q incoming (q.events.drop j)

theorem Evicted.none : Evicted textLen q incoming 0 q :=
  ⟨rfl, Nat.zero_le _, rfl, rfl, rfl, ⟨rfl, rfl⟩, by simp⟩

/-- One pass, then `k` more. -/
theorem Evicted.cons {r : OutboundQueue} {evictAt : Nat}
    (first : q.inner.findIdx? Frame.isEvent = some evictAt)
    (exceeds : ¬ Fits textLen q incoming q.events)
    (rest : Evicted textLen
      { q with inner := q.inner.eraseIdx evictAt }.recordDrop incoming k r) :
    Evicted textLen q incoming (k + 1) r := by
  obtain ⟨tail, others, some⟩ := filter_eraseIdx_first first
  have tail : { q with inner := q.inner.eraseIdx evictAt }.recordDrop.events = q.events.tail := tail
  have nonempty : 0 < q.events.length := List.length_pos_of_ne_nil some
  have few := rest.few
  rw [tail, List.length_tail] at few
  constructor
  · rw [rest.events, tail, List.drop_tail]
  · omega
  · exact rest.controls.trans others
  · rw [rest.dropped]
    simp only [recordDrop]
    omega
  · exact rest.delivered
  · exact rest.limits
  · intro j below
    cases j with
    | zero => exact exceeds
    | succ j =>
      have := rest.needed j (Nat.lt_of_succ_lt_succ below)
      rwa [tail, List.drop_tail] at this

/-- The loop ends with no event left or with room for the incoming one. -/
theorem evict_evicts (passes : Nat) (enough : q.events.length ≤ passes) :
    ∃ k, Evicted textLen q incoming k (evict textLen incoming passes q) ∧
      ((evict textLen incoming passes q).events = [] ∨
        Fits textLen q incoming (evict textLen incoming passes q).events) := by
  induction passes generalizing q with
  | zero =>
    have nil : q.events = [] := List.eq_nil_of_length_eq_zero (Nat.le_zero.mp enough)
    exact ⟨0, .none, .inl nil⟩
  | succ passes ih =>
    simp only [evict]
    split
    · rename_i exceeds
      obtain ⟨some, exceeds⟩ := overBudget_iff.mp exceeds
      split
      · rename_i none
        have nil : q.events = [] := List.filter_eq_nil_iff.mpr fun frame mem =>
          by simpa using List.findIdx?_eq_none_iff.mp none frame mem
        exact absurd nil some
      · rename_i evictAt first
        have tail : { q with inner := q.inner.eraseIdx evictAt }.recordDrop.events =
            q.events.tail := (filter_eraseIdx_first first).1
        obtain ⟨k, rest, done⟩ := ih (by rw [tail, List.length_tail]; omega)
        exact ⟨k + 1, .cons first exceeds rest, done⟩
    · rename_i fits
      have done : q.events = [] ∨ Fits textLen q incoming q.events := by
        by_contra neither
        exact fits (overBudget_iff.mpr (not_or.mp neither))
      exact ⟨0, .none, done⟩

/-! ## The calls -/

@[simp] theorem events_push (q : OutboundQueue) (msg : SubServerMsg) :
    { q with inner := q.inner ++ [eventFrame msg] }.events = q.events ++ [eventFrame msg] := by
  simp [events, eventFrame]

@[simp] theorem controls_push (q : OutboundQueue) (msg : SubServerMsg) :
    { q with inner := q.inner ++ [eventFrame msg] }.controls = q.controls := by
  simp [controls, eventFrame]

/-- An event of acceptable size goes behind what the eviction left. -/
theorem pushEvent_accepted {msg : SubServerMsg} (small : textLen msg ≤ q.maxEventBytes) :
    ∃ k r, Evicted textLen q (textLen msg) k r ∧
      (r.events = [] ∨ Fits textLen q (textLen msg) r.events) ∧ r.inner.Sublist q.inner ∧
      q.pushEvent textLen msg = { r with inner := r.inner ++ [eventFrame msg] } := by
  have enough : q.events.length ≤ q.inner.length := List.length_filter_le _ _
  obtain ⟨k, evicted, done⟩ :=
    @evict_evicts textLen q (textLen msg) q.inner.length enough
  refine ⟨k, _, evicted, done, (evict_spec _ _ q).2.2, ?_⟩
  simp [pushEvent, Nat.not_lt.mpr small, eventFrame]

theorem pushEvent_rejected {msg : SubServerMsg} (big : ¬ textLen msg ≤ q.maxEventBytes) :
    q.pushEvent textLen msg = q.recordDrop := by
  simp [pushEvent, Nat.lt_of_not_le big]

section
variable {maxEvents maxEventBytes offers : Nat} {before popped : List Frame}

theorem accounts_new : Accounts textLen maxEvents maxEventBytes 0 [] []
    (new maxEvents maxEventBytes) := by
  constructor
  · exact ⟨rfl, rfl⟩
  · exact Nat.zero_le _
  · exact Nat.zero_le _
  · rfl
  · exact .refl _
  · exact ⟨[], rfl, .refl _⟩
  · rfl
  · rfl

theorem accounts_pushEvent {msg : SubServerMsg}
    (acc : Accounts textLen maxEvents maxEventBytes offers before popped q) :
    Accounts textLen maxEvents maxEventBytes (offers + 1)
      (before ++ (Call.pushEvent msg).pushed textLen (max maxEventBytes 1)) popped
      (q.pushEvent textLen msg) := by
  obtain ⟨maxE, maxB⟩ := acc.limits
  by_cases small : textLen msg ≤ max maxEventBytes 1
  · obtain ⟨k, r, ev, done, sub, push⟩ := pushEvent_accepted (maxB ▸ small)
    obtain ⟨gone, split, seen⟩ := acc.recent
    have accounted := acc.accounted
    have few := ev.few
    have pos : 1 ≤ max maxEvents 1 := Nat.le_max_right _ _
    rw [push, Call.pushed, if_pos small]
    constructor
    · exact ⟨ev.limits.1.trans maxE, ev.limits.2.trans maxB⟩
    · rw [events_push, List.length_append, List.length_singleton]
      obtain nil | fits := done
      · rw [nil]; exact pos
      · exact maxE ▸ fits.1
    · rw [events_push]
      obtain nil | fits := done
      · simpa [bytes, nil, eventFrame] using small
      · have fits := fits.2
        rw [maxB] at fits
        simpa only [bytes, eventFrame, List.map_append, List.sum_append, List.map_cons, List.map_nil,
          List.sum_cons, List.sum_nil, Nat.add_zero] using fits
    · rw [controls_push, ev.controls, List.filter_append, acc.controls]
      simp [eventFrame]
    · rw [← List.append_assoc]
      exact ((List.Sublist.refl popped).append sub).trans acc.order |>.append (.refl _)
    · refine ⟨gone ++ q.events.take k, ?_, seen.trans (List.sublist_append_left _ _)⟩
      rw [events_push, ev.events, List.filter_append, split, List.append_assoc gone (q.events.take k),
        ← List.append_assoc (q.events.take k), List.take_append_drop, List.append_assoc]
      rfl
    · exact ev.delivered.trans acc.delivered
    · rw [events_push, List.length_append, ev.events, List.length_drop, List.length_singleton]
      change _ = r.delivered + r.dropped + _
      rw [ev.delivered, ev.dropped]
      omega
  · rw [pushEvent_rejected (maxB ▸ small), Call.pushed, if_neg small, List.append_nil]
    exact ⟨acc.limits, acc.count, acc.size, acc.controls, acc.order, acc.recent, acc.delivered,
      by have := acc.accounted; change _ = q.delivered + (q.dropped + 1) + q.events.length; omega⟩

theorem accounts_pushControl {msg : SubServerMsg}
    (acc : Accounts textLen maxEvents maxEventBytes offers before popped q) :
    Accounts textLen maxEvents maxEventBytes offers (before ++ [controlFrame msg]) popped
      (q.pushControl msg) := by
  have push : q.pushControl msg = { q with inner := q.inner ++ [controlFrame msg] } := rfl
  have events : (q.pushControl msg).events = q.events := by
    simp [push, OutboundQueue.events, controlFrame]
  have controls : (q.pushControl msg).controls = q.controls ++ [controlFrame msg] := by
    simp [push, OutboundQueue.controls, controlFrame]
  constructor
  · exact acc.limits
  · rw [events]; exact acc.count
  · rw [events]; exact acc.size
  · rw [controls, ← List.append_assoc, ← acc.controls]
    simp [controlFrame]
  · rw [push, ← List.append_assoc]
    exact acc.order.append (.refl _)
  · rw [events]
    simpa [controlFrame] using acc.recent
  · exact acc.delivered
  · rw [events]; exact acc.accounted

theorem accounts_pop {frame : Frame} {r : OutboundQueue} (pop : q.pop = some (frame, r))
    (acc : Accounts textLen maxEvents maxEventBytes offers before popped q) :
    Accounts textLen maxEvents maxEventBytes offers before (popped ++ [frame]) r := by
  unfold OutboundQueue.pop at pop
  split at pop
  · cases pop
  · rename_i first rest inner
    cases pop
    obtain ⟨limits, count, size, controls, order, ⟨gone, split, seen⟩, delivered, accounted⟩ := acc
    have order : (popped ++ [frame] ++ rest).Sublist before := by
      simpa [inner] using order
    cases event : frame.isEvent with
    | true =>
      -- The oldest event leaves: it joins those that are gone.
      have events : q.events = frame :: rest.filter Frame.isEvent := by
        simp [OutboundQueue.events, inner, event]
      have same : q.controls = rest.filter fun frame => !frame.isEvent := by
        simp [OutboundQueue.controls, inner, event]
      rw [events, List.length_cons] at count accounted
      rw [events, bytes, List.map_cons, List.sum_cons] at size
      constructor
      · exact limits
      · exact Nat.le_of_succ_le count
      · exact Nat.le_trans (Nat.le_add_left _ _) size
      · rw [controls, same, List.filter_append]
        simp [OutboundQueue.controls, event]
      · exact order
      · refine ⟨gone ++ [frame], by rw [split, events, List.append_assoc]; rfl, ?_⟩
        rw [List.filter_append]
        exact seen.append (by simp [event])
      · simp [event, delivered]
      · simp only [if_true, OutboundQueue.events]
        omega
    | false =>
      have events : q.events = rest.filter Frame.isEvent := by
        simp [OutboundQueue.events, inner, event]
      have first : q.controls = frame :: rest.filter fun frame => !frame.isEvent := by
        simp [OutboundQueue.controls, inner, event]
      rw [events] at count size accounted split
      constructor
      · exact limits
      · exact count
      · exact size
      · rw [controls, first, List.filter_append]
        simp [OutboundQueue.controls, event]
      · exact order
      · refine ⟨gone, split, ?_⟩
        simpa [event] using seen
      · simp [event, delivered]
      · simpa only [Bool.false_eq_true, if_false, OutboundQueue.events] using accounted

theorem accounts_call {popped' : List Frame} {r : OutboundQueue} {c : Call}
    (acc : Accounts textLen maxEvents maxEventBytes offers before popped q)
    (next : call textLen (q, popped) c = (r, popped')) :
    Accounts textLen maxEvents maxEventBytes (offers + if c.isPushEvent then 1 else 0)
      (before ++ c.pushed textLen (max maxEventBytes 1)) popped' r := by
  cases c with
  | pushEvent msg =>
    cases next
    exact accounts_pushEvent acc
  | pushControl msg =>
    cases next
    exact accounts_pushControl acc
  | pop =>
    simp only [Call.pushed, List.append_nil, Call.isPushEvent, Bool.false_eq_true, if_false,
      Nat.add_zero]
    simp only [call] at next
    split at next
    · cases next
      exact acc
    · rename_i frame q' pop
      cases next
      exact accounts_pop pop acc

theorem accounts_calls (cs : List Call)
    (acc : Accounts textLen maxEvents maxEventBytes offers before popped q) :
    Accounts textLen maxEvents maxEventBytes (offers + cs.countP Call.isPushEvent)
      (before ++ pushed textLen (max maxEventBytes 1) cs)
      (cs.foldl (call textLen) (q, popped)).2 (cs.foldl (call textLen) (q, popped)).1 := by
  induction cs generalizing q offers before popped with
  | nil => simpa [pushed] using acc
  | cons c cs ih =>
    have rest := ih (accounts_call (c := c) acc rfl)
    rw [List.foldl_cons, List.countP_cons, Nat.add_comm (cs.countP _), ← Nat.add_assoc, pushed,
      List.flatMap_cons, ← List.append_assoc]
    exact rest

end

theorem evictsLeast (q : OutboundQueue) : EvictsLeast textLen q := by
  intro msg small
  obtain ⟨k, r, ev, _, _, push⟩ := pushEvent_accepted small
  refine ⟨k, ?_, ev.needed⟩
  rw [push, events_push, ev.events]

/-- Whatever the calls: the budgets hold, controls leave only by a pop, frames come out in
push order, the events queued are the latest accepted ones without a hole, and every
`push_event` is delivered, dropped or queued. -/
theorem calls_accounted (maxEvents maxEventBytes : Nat) (cs : List Call) :
    Accounts textLen maxEvents maxEventBytes (cs.countP Call.isPushEvent)
      (pushed textLen (max maxEventBytes 1) cs)
      (calls textLen (new maxEvents maxEventBytes) cs).2
      (calls textLen (new maxEvents maxEventBytes) cs).1 ∧
    EvictsLeast textLen (calls textLen (new maxEvents maxEventBytes) cs).1 := by
  have acc := accounts_calls cs (@accounts_new textLen maxEvents maxEventBytes)
  rw [Nat.zero_add, List.nil_append] at acc
  exact ⟨acc, evictsLeast _⟩

end Whdr.OutboundQueue
