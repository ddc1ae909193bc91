import Whdr.Lib.Runs
import Whdr.SubKit.Resume

/-! The async iterator of the TypeScript kit (subscriber.ts): the run loop pushes events into a
queue and saves its cursor, the consumer takes them with `next`. -/
namespace Whdr.Stream

open Runs (Reaches exec guarded reaches_of_exec)

/-- The bridge between the two. `waiting` says that a `next` promise is still to be resolved. -/
structure EventQueue where
  items : List StampedEvent
  waiting : Bool
  done : Bool
  failed : Bool
  deriving DecidableEq, Repr

namespace EventQueue

def new : EventQueue := ⟨[], false, false, false⟩

/-- The event is handed to the waiting promise or kept. -/
def push (q : EventQueue) (e : StampedEvent) : List StampedEvent × EventQueue :=
  if q.waiting then ([e], { q with waiting := false })
  else ([], { q with items := q.items ++ [e] })

def finish (q : EventQueue) : EventQueue := { q with done := true, waiting := false }

def fail (q : EventQueue) : EventQueue := { q with failed := true, waiting := false }

/-- A kept event is handed out, or the promise settles as the queue ended, or it waits. -/
def next (q : EventQueue) : List StampedEvent × EventQueue :=
  match q.items with
  | e :: rest => ([e], { q with items := rest })
  | [] => if q.failed || q.done then ([], q) else ([], { q with waiting := true })

end EventQueue

/-- Where the run loop awaits. -/
inductive Stage
  | offline
  | receiving
  | handled (e : StampedEvent)
  | saving
  | ended
  deriving DecidableEq, Repr

/-- `handed` are the events the iterator has been handed and `saves` the cursors passed to
`cursorStore.save`, each in order. -/
structure State where
  stage : Stage
  aborted : Bool
  resume : ResumeState
  queue : EventQueue
  handed : List StampedEvent
  saves : List Nat
  deriving DecidableEq, Repr

inductive Connecting
  | ok
  | transient
  | fatal
  deriving DecidableEq, Repr

/-- `proceed` is the loop going on after the handler's `await`, `settle` after the save's. -/
inductive Action
  | connect (outcome : Connecting)
  | receive (frame : SubServerMsg) (hookFails : Bool)
  | proceed
  | settle (saved : Bool)
  | disconnect
  | abort
  | stop
  | next
  | return_
  deriving DecidableEq, Repr

def start (cursor capacity : Nat) : State :=
  ⟨.offline, false, .new cursor capacity, .new, [], []⟩

def Starts (s : State) : Prop := ∃ cursor capacity, s = start cursor capacity

/-- A fatal error rejects the promise of `run`. -/
def State.fatal (s : State) : State := { s with stage := .ended, queue := s.queue.fail }

/-- The hook of a frame, which may throw. -/
def State.hook (s : State) (fails : Bool) (after : Stage) : State :=
  if fails then s.fatal else { s with stage := after }

/-- `onEvent` of the handler `stream` installs. -/
def State.onEvent (s : State) (e : StampedEvent) : State :=
  let (given, queue) := s.queue.push e
  { s with stage := .handled e, queue := queue, handed := s.handed ++ given }

def receive (s : State) (frame : SubServerMsg) (hookFails : Bool) : State :=
  match frame with
  | .event e => if s.resume.shouldProcess e.id e.seq then s.onEvent e else s
  | .replayed _ | .replayGap _ _ => s.hook hookFails .receiving
  | .lagged _ => s.hook hookFails .offline
  | .error op _ => if op = "replay" then s.hook hookFails .receiving else s
  | .closing .revoked => s.fatal
  | .closing .shutdown => { s with stage := .offline }
  | .welcome _ | .ok _ | .pong => s

def step (s : State) : Action → Option State
  | .connect outcome =>
    if s.stage = .offline ∧ !s.aborted then
      match outcome with
      | .ok => some { s with stage := .receiving }
      | .transient => some s
      | .fatal => some s.fatal
    else none
  | .receive frame hookFails =>
    if s.stage = .receiving then some (receive s frame hookFails) else none
  | .proceed =>
    match s.stage with
    | .handled e =>
      let resume := s.resume.record e.id e.seq
      some { s with stage := .saving, resume := resume, saves := s.saves ++ [resume.cursor] }
    | _ => none
  | .settle saved =>
    if s.stage = .saving then
      some (if saved then { s with stage := .receiving } else s.fatal)
    else none
  | .disconnect => if s.stage = .receiving then some { s with stage := .offline } else none
  | .abort => some { s with aborted := true }
  | .stop =>
    if s.aborted ∧ (s.stage = .offline ∨ s.stage = .receiving) then
      some { s with stage := .ended, queue := s.queue.finish }
    else none
  | .next =>
    let (given, queue) := s.queue.next
    some { s with queue := queue, handed := s.handed ++ given }
  | .return_ => some { s with aborted := true, queue := s.queue.finish }

/-- The cursor saved last is at most the seq of an event the consumer has. -/
def AtLeastOnce (s : State) : Prop :=
  ∀ cursor, s.saves.getLast? = some cursor → ∃ e ∈ s.handed, cursor ≤ e.seq

/-- The loop only saves once the consumer has taken every event. -/
def Drained (s : State) : Action → Prop
  | .proceed => s.queue.items = []
  | _ => True

instance (s : State) (a : Action) : Decidable (Drained s a) :=
  match a with
  | .proceed => inferInstanceAs (Decidable (s.queue.items = []))
  | .connect _ | .receive _ _ | .settle _ | .disconnect | .abort | .stop | .next | .return_ =>
    isTrue trivial

/-! ## What is pushed and what is saved -/

/-- The events pushed so far, taken or not. -/
def State.pushed (s : State) : List StampedEvent := s.handed ++ s.queue.items

/-- The queue is first in, first out; what was pushed is recorded, but for the event whose
handler is awaited. -/
structure Valid (s : State) : Prop where
  empty : s.queue.waiting = true → s.queue.items = []
  recorded : (∀ e, s.stage ≠ .handled e) → ∀ e ∈ s.pushed, e.seq ≤ s.resume.cursor
  awaited : ∀ e, s.stage = .handled e → s.resume.cursor < e.seq ∧
    ∃ front, s.pushed = front ++ [e] ∧ ∀ x ∈ front, x.seq ≤ s.resume.cursor

variable {s t : State} {a : Action} {e : StampedEvent}

theorem start_valid (cursor capacity : Nat) : Valid (start cursor capacity) where
  empty := by rintro ⟨⟩
  recorded := by rintro _ e ⟨⟩
  awaited := by rintro e ⟨⟩

/-- No handler is awaited in a stage other than `handled`. -/
theorem not_handled {stage : Stage} (here : s.stage = stage) (other : ∀ e, stage ≠ .handled e) :
    ∀ e, s.stage ≠ .handled e := by
  rw [here]
  exact other

/-- A step that pushes and records nothing keeps the events, from a stage where no handler is
awaited to another one. -/
theorem Valid.move (valid : Valid s) (before : ∀ e, s.stage ≠ .handled e)
    (after : ∀ e, t.stage ≠ .handled e) (empty : t.queue.waiting = true → t.queue.items = [])
    (pushed : t.pushed = s.pushed) (resume : t.resume = s.resume) : Valid t where
  empty := empty
  recorded := by
    rw [pushed, resume]
    exact fun _ => valid.recorded before
  awaited := fun e stage => absurd stage (after e)

/-- The same for a step of the consumer, whatever the loop awaits. -/
theorem Valid.take (valid : Valid s) (stage : t.stage = s.stage)
    (empty : t.queue.waiting = true → t.queue.items = []) (pushed : t.pushed = s.pushed)
    (resume : t.resume = s.resume) : Valid t where
  empty := empty
  recorded := by
    rw [pushed, resume, stage]
    exact valid.recorded
  awaited := by
    rw [pushed, resume, stage]
    exact valid.awaited

theorem fatal_valid (valid : Valid s) (before : ∀ e, s.stage ≠ .handled e) : Valid s.fatal :=
  valid.move before (by rintro e ⟨⟩) (by rintro ⟨⟩) rfl rfl

theorem hook_valid (valid : Valid s) (before : ∀ e, s.stage ≠ .handled e) (fails : Bool)
    {after : Stage} (notHandled : ∀ e, after ≠ .handled e) : Valid (s.hook fails after) := by
  unfold State.hook
  split
  · exact fatal_valid valid before
  · exact valid.move before notHandled valid.empty rfl rfl

theorem pushed_onEvent (valid : Valid s) (e : StampedEvent) :
    (s.onEvent e).pushed = s.pushed ++ [e] := by
  unfold State.onEvent EventQueue.push State.pushed
  cases waiting : s.queue.waiting with
  | true => simp [valid.empty waiting]
  | false => simp

theorem onEvent_valid (valid : Valid s) (before : ∀ e, s.stage ≠ .handled e)
    (process : s.resume.shouldProcess e.id e.seq = true) : Valid (s.onEvent e) where
  empty := by
    unfold State.onEvent EventQueue.push
    cases waiting : s.queue.waiting with
    | true => simp
    | false => simp
  recorded := fun notHandled => absurd rfl (notHandled e)
  awaited := by
    rintro _ ⟨⟩
    have above : s.resume.cursor < e.seq := by
      rw [ResumeState.shouldProcess, Bool.and_eq_true] at process
      exact of_decide_eq_true process.1
    exact ⟨above, s.pushed, pushed_onEvent valid e, valid.recorded before⟩

theorem receive_valid (valid : Valid s) (receiving : s.stage = .receiving) (frame : SubServerMsg)
    (hookFails : Bool) : Valid (receive s frame hookFails) := by
  have before := not_handled receiving (by rintro e ⟨⟩)
  unfold receive
  split
  · split
    · exact onEvent_valid valid before ‹_›
    · exact valid
  · exact hook_valid valid before _ (by rintro e ⟨⟩)
  · exact hook_valid valid before _ (by rintro e ⟨⟩)
  · exact hook_valid valid before _ (by rintro e ⟨⟩)
  · split
    · exact hook_valid valid before _ (by rintro e ⟨⟩)
    · exact valid
  · exact fatal_valid valid before
  · exact valid.move before (by rintro e ⟨⟩) valid.empty rfl rfl
  · exact valid
  · exact valid
  · exact valid

/-- Recording the awaited event moves the cursor to it. -/
theorem cursor_proceed (valid : Valid s) (handled : s.stage = .handled e) :
    (s.resume.record e.id e.seq).cursor = e.seq := by
  have above := (valid.awaited e handled).1
  rw [ResumeState.record_cursor]
  omega

/-- After the record, the awaited event is below the cursor like those before it. -/
theorem proceed_valid (valid : Valid s) (handled : s.stage = .handled e) :
    Valid { s with
      stage := .saving
      resume := s.resume.record e.id e.seq
      saves := s.saves ++ [(s.resume.record e.id e.seq).cursor] } := by
  obtain ⟨above, front, pushed, below⟩ := valid.awaited e handled
  have cursor := cursor_proceed valid handled
  refine ⟨valid.empty, fun _ x mem => ?_, by rintro e ⟨⟩⟩
  dsimp only
  rw [cursor]
  change x ∈ s.pushed at mem
  rw [pushed] at mem
  obtain old | new := List.mem_append.mp mem
  · have := below x old
    omega
  · rw [List.mem_singleton.mp new]

theorem next_queue (q : EventQueue) :
    q.next.1 ++ q.next.2.items = q.items ∧
      ((q.waiting = true → q.items = []) → q.next.2.waiting = true → q.next.2.items = []) := by
  unfold EventQueue.next
  split
  · rename_i items
    refine ⟨items.symm, fun empty waiting => ?_⟩
    rw [empty waiting] at items
    cases items
  · rename_i items
    split
    · exact ⟨items.symm ▸ rfl, fun _ _ => items⟩
    · exact ⟨items.symm ▸ rfl, fun _ _ => items⟩

/-- What each action leaves behind, and the stages it is taken in. -/
inductive Steps (s : State) : Action → State → Prop
  | connected (ready : s.stage = .offline ∧ !s.aborted) :
      Steps s (.connect .ok) { s with stage := .receiving }
  | retried (ready : s.stage = .offline ∧ !s.aborted) : Steps s (.connect .transient) s
  | refused (ready : s.stage = .offline ∧ !s.aborted) : Steps s (.connect .fatal) s.fatal
  | received {frame : SubServerMsg} {hookFails : Bool} (receiving : s.stage = .receiving) :
      Steps s (.receive frame hookFails) (receive s frame hookFails)
  | proceeded {e : StampedEvent} (handled : s.stage = .handled e) :
      Steps s .proceed { s with
        stage := .saving
        resume := s.resume.record e.id e.seq
        saves := s.saves ++ [(s.resume.record e.id e.seq).cursor] }
  | saved (saving : s.stage = .saving) : Steps s (.settle true) { s with stage := .receiving }
  | unsaved (saving : s.stage = .saving) : Steps s (.settle false) s.fatal
  | disconnected (receiving : s.stage = .receiving) :
      Steps s .disconnect { s with stage := .offline }
  | aborted : Steps s .abort { s with aborted := true }
  | stopped (ready : s.aborted ∧ (s.stage = .offline ∨ s.stage = .receiving)) :
      Steps s .stop { s with stage := .ended, queue := s.queue.finish }
  | asked : Steps s .next { s with
      queue := s.queue.next.2
      handed := s.handed ++ s.queue.next.1 }
  | returned : Steps s .return_ { s with aborted := true, queue := s.queue.finish }

theorem step_cases (hs : step s a = some t) : Steps s a t := by
  cases a with
  | connect outcome =>
    simp only [step] at hs
    split at hs
    · rename_i ready
      cases outcome with
      | ok => cases hs; exact .connected ready
      | transient => cases hs; exact .retried ready
      | fatal => cases hs; exact .refused ready
    · cases hs
  | receive frame hookFails =>
    simp only [step] at hs
    split at hs
    · rename_i receiving
      cases hs
      exact .received receiving
    · cases hs
  | proceed =>
    simp only [step] at hs
    split at hs
    · rename_i e handled
      cases hs
      exact .proceeded handled
    · cases hs
  | settle saved =>
    simp only [step] at hs
    split at hs
    · rename_i saving
      cases saved with
      | true => cases hs; exact .saved saving
      | false => cases hs; exact .unsaved saving
    · cases hs
  | disconnect =>
    simp only [step] at hs
    split at hs
    · rename_i receiving
      cases hs
      exact .disconnected receiving
    · cases hs
  | stop =>
    simp only [step] at hs
    split at hs
    · rename_i ready
      cases hs
      exact .stopped ready
    · cases hs
  | abort => cases hs; exact .aborted
  | next => cases hs; exact .asked
  | return_ => cases hs; exact .returned

theorem step_valid (valid : Valid s) (hs : step s a = some t) : Valid t := by
  cases step_cases hs with
  | connected ready =>
    have before := not_handled ready.1 (by rintro e ⟨⟩)
    exact valid.move before (by rintro e ⟨⟩) valid.empty rfl rfl
  | retried => exact valid
  | refused ready => exact fatal_valid valid (not_handled ready.1 (by rintro e ⟨⟩))
  | received receiving => exact receive_valid valid receiving _ _
  | proceeded handled => exact proceed_valid valid handled
  | saved saving =>
    have before := not_handled saving (by rintro e ⟨⟩)
    exact valid.move before (by rintro e ⟨⟩) valid.empty rfl rfl
  | unsaved saving => exact fatal_valid valid (not_handled saving (by rintro e ⟨⟩))
  | disconnected receiving =>
    have before := not_handled receiving (by rintro e ⟨⟩)
    exact valid.move before (by rintro e ⟨⟩) valid.empty rfl rfl
  | aborted => exact valid.take rfl valid.empty rfl rfl
  | stopped ready =>
    have before : ∀ e, s.stage ≠ .handled e := by
      obtain offline | receiving := ready.2
      · exact not_handled offline (by rintro e ⟨⟩)
      · exact not_handled receiving (by rintro e ⟨⟩)
    exact valid.move before (by rintro e ⟨⟩) (by rintro ⟨⟩) rfl rfl
  | asked =>
    obtain ⟨items, empty⟩ := next_queue s.queue
    refine valid.take rfl (empty valid.empty) ?_ rfl
    simp only [State.pushed, List.append_assoc, items]
  | returned => exact valid.take rfl (by rintro ⟨⟩) rfl rfl

theorem receive_saves (s : State) (frame : SubServerMsg) (hookFails : Bool) :
    (receive s frame hookFails).saves = s.saves ∧
      ∀ e ∈ s.handed, e ∈ (receive s frame hookFails).handed := by
  have hook : ∀ after, (s.hook hookFails after).saves = s.saves ∧
      (s.hook hookFails after).handed = s.handed := by
    intro after
    unfold State.hook
    split <;> exact ⟨rfl, rfl⟩
  unfold receive
  split
  · split
    · exact ⟨rfl, fun e mem => List.mem_append_left _ mem⟩
    · exact ⟨rfl, fun _ mem => mem⟩
  · exact ⟨(hook _).1, fun _ mem => (hook _).2 ▸ mem⟩
  · exact ⟨(hook _).1, fun _ mem => (hook _).2 ▸ mem⟩
  · exact ⟨(hook _).1, fun _ mem => (hook _).2 ▸ mem⟩
  · split
    · exact ⟨(hook _).1, fun _ mem => (hook _).2 ▸ mem⟩
    · exact ⟨rfl, fun _ mem => mem⟩
  all_goals exact ⟨rfl, fun _ mem => mem⟩

/-- Only `proceed` saves, and nothing handed out is taken back. -/
theorem step_saves (other : a ≠ .proceed) (hs : step s a = some t) :
    t.saves = s.saves ∧ ∀ e ∈ s.handed, e ∈ t.handed := by
  cases step_cases hs with
  | received => exact receive_saves s _ _
  | proceeded => exact absurd rfl other
  | asked => exact ⟨rfl, fun _ mem => List.mem_append_left _ mem⟩
  | connected | retried | refused | saved | unsaved | disconnected | aborted | stopped | returned =>
    exact ⟨rfl, fun _ mem => mem⟩

/-! ## Saved and handed out -/

theorem proceed_saves (hs : step s .proceed = some t) : ∃ e, s.stage = .handled e ∧
    t.saves = s.saves ++ [(s.resume.record e.id e.seq).cursor] ∧ t.handed = s.handed := by
  cases step_cases hs with
  | proceeded handled => exact ⟨_, handled, rfl, rfl⟩

/-- The event saved last has been taken if nothing is left in the queue. -/
theorem proceed_drained (valid : Valid s) (drained : s.queue.items = [])
    (hs : step s .proceed = some t) : AtLeastOnce t := by
  obtain ⟨e, handled, saves, handed⟩ := proceed_saves hs
  obtain ⟨_, front, pushed, _⟩ := valid.awaited e handled
  rw [State.pushed, drained, List.append_nil] at pushed
  intro cursor last
  rw [saves, List.getLast?_append, List.getLast?_singleton, Option.some_or] at last
  cases last
  refine ⟨e, ?_, Nat.le_of_eq (cursor_proceed valid handled)⟩
  rw [handed, pushed]
  exact List.mem_append_right _ List.mem_cons_self

/-- If something is left, the event saved last is among it and none taken is as late. -/
theorem proceed_undrained (valid : Valid s) (left : s.queue.items ≠ [])
    (hs : step s .proceed = some t) : ¬ AtLeastOnce t := by
  obtain ⟨e, handled, saves, handed⟩ := proceed_saves hs
  obtain ⟨above, front, pushed, below⟩ := valid.awaited e handled
  intro once
  have last : t.saves.getLast? = some e.seq := by
    rw [saves, cursor_proceed valid handled, List.getLast?_append]
    rfl
  obtain ⟨x, mem, le⟩ := once e.seq last
  have taken : x ∈ front := by
    rw [State.pushed, ← List.dropLast_append_getLast left, ← List.append_assoc] at pushed
    have init := (List.append_inj' pushed rfl).1
    rw [← init, ← handed]
    exact List.mem_append_left _ mem
  have := below x taken
  omega

theorem reaches_valid {ok : State → Action → Prop} (reached : Reaches Starts step ok s) :
    Valid s := by
  refine reached.invariant Valid ?_ fun s a t _ valid _ hs => step_valid valid hs
  rintro s ⟨cursor, capacity, rfl⟩
  exact start_valid cursor capacity

/-- As long as each save finds the queue empty, the cursor saved last is at most the seq of an
event the consumer has; a save that finds an event in it goes past the consumer. -/
theorem saved_cursor_handed (s : State) :
    (Reaches Starts step Drained s → AtLeastOnce s) ∧
      ∀ t, Reaches Starts step (fun _ _ => True) s → s.queue.items ≠ [] →
        step s .proceed = some t → ¬ AtLeastOnce t := by
  refine ⟨fun reached => ?_, fun t reached => proceed_undrained (reaches_valid reached)⟩
  refine reached.invariant AtLeastOnce ?_ ?_
  · rintro s ⟨cursor, capacity, rfl⟩ last isLast
    cases isLast
  · intro s a t reached once drained hs
    by_cases save : a = .proceed
    · subst save
      exact proceed_drained (reaches_valid reached) drained hs
    · obtain ⟨saves, grows⟩ := step_saves save hs
      intro cursor last
      rw [saves] at last
      obtain ⟨e, mem, le⟩ := once cursor last
      exact ⟨e, grows e mem, le⟩

/-- A consumer that waits for the event has it before it is saved. -/
def waitingActions : List Action :=
  [.next, .connect .ok, .receive (.event ⟨1, 7, 0, "dev.one", "MQ=="⟩) false, .proceed]

theorem saved_cursor_handed_waiting :
    ∃ s, Reaches Starts step Drained s ∧ s.saves = [1] ∧ AtLeastOnce s := by
  have run : (exec (guarded Drained step) (start 0 8) waitingActions).map State.saves =
      some [1] := by decide
  obtain ⟨s, hs, saves⟩ := Option.map_eq_some_iff.mp run
  have reached : Reaches Starts step Drained s := reaches_of_exec _ (.start ⟨0, 8, rfl⟩) hs
  exact ⟨s, reached, saves, (saved_cursor_handed s).1 reached⟩

/-- The consumer has not asked for the event when its seq is saved. -/
theorem saved_before_handed :
    ¬ ∀ s, Reaches Starts step (fun _ _ => True) s → AtLeastOnce s := by
  intro all
  have run : (exec (guarded (fun _ _ => True) step) (start 0 8) (waitingActions.drop 1)).map
      (fun s => (s.saves, s.handed)) = some ([1], []) := by decide
  obtain ⟨s, hs, both⟩ := Option.map_eq_some_iff.mp run
  obtain ⟨saves, handed⟩ := Prod.mk.inj both
  obtain ⟨e, mem, _⟩ := all s (reaches_of_exec _ (.start ⟨0, 8, rfl⟩) hs) 1 (by rw [saves]; rfl)
  rw [handed] at mem
  cases mem

end Whdr.Stream
