import Whdr.Lib.Runs
import Whdr.Server.DispatchWindow

/-! The drain of one generation of an extension against the requests that dispatch to it
(daemon.rs): what goes into the channel to its stdin, and in which order. -/
namespace Whdr.Drain

open Runs (Reaches exec guarded reaches_of_exec)

/-- Of a dispatch, the field its answer is matched by. -/
inductive SrvMsg
  | dispatch (reqId : Uuid)
  | shutdown
  deriving DecidableEq, Repr

inductive Reason
  | removedFromConfig
  | serverShutdown
  deriving DecidableEq, Repr

inductive SupervisorCommand
  | drainStop (reason : Reason)
  | killAndRespawn
  deriving DecidableEq, Repr

/-- How far `dispatch` has come for one request. `reserving`: between the two halves of
`reserve`. -/
inductive Request
  | found
  | cloned
  | reserving
  | sending (reqId : Uuid)
  | waiting (reqId : Uuid)
  | finished
  deriving DecidableEq, Repr

/-- The request sends no dispatch any more. -/
def Request.settled : Request → Bool
  | .waiting _ | .finished => true
  | _ => false

/-- How far `supervise_extension` has come. `drained`: the wait for the drain is over.
From `ended` on it is in `cleanup_extension_generation`. -/
inductive Supervisor
  | starting
  | watching
  | draining
  | drained
  | sending
  | stopping
  | ended
  | removed
  | unrouted
  | finished
  deriving DecidableEq, Repr

/-- How far `stop_removed_extensions` has come with this handle. -/
inductive Reload
  | read
  | unrouted
  | finished
  deriving DecidableEq, Repr

/-- `routed`: rows of `routes` lead to this id. `active`: the handle is in `extensions`.
`tx`: all that has been enqueued, oldest first. `reason`: of the `DrainStop` taken. -/
structure State where
  routed : Bool
  active : Bool
  dispatches : DispatchWindow
  tx : List SrvMsg
  writerGone : Bool
  requests : List Request
  commands : List SupervisorCommand
  supervisor : Supervisor
  reason : Option Reason
  reloads : List Reload
  deriving DecidableEq

/-- Right after the registration. Requests that found a row of an earlier generation may
be on their way. -/
def registered (n : Nat) : State :=
  ⟨true, true, .new, [], false, List.replicate n .found, [], .starting, none, []⟩

/-! ## Steps -/

inductive RequestStep
  | cloneHandle
  | reserve (maxInFlight : Nat)
  | insert (reqId : Uuid)
  | send
  | ends
  deriving DecidableEq, Repr

/-- One step of the request at place `i`. `ends` is the result, the timeout, the drop of
the sender or a client that has gone; no await stands between the halves of `reserve`. -/
def Request.advance (s : State) (i : Nat) : Request → RequestStep → Option (State × Request)
  | .found, .cloneHandle => some (s, if s.active then .cloned else .finished)
  | .found, .ends | .cloned, .ends => some (s, .finished)
  | .cloned, .reserve maxInFlight =>
    match s.dispatches.reserveInFlight maxInFlight with
    | none => some (s, .finished)
    | some window => some ({ s with dispatches := window }, .reserving)
  | .reserving, .insert reqId =>
    some ({ s with dispatches := s.dispatches.insert reqId i }, .sending reqId)
  | .sending reqId, .send =>
    if s.writerGone then some ({ s with dispatches := (s.dispatches.remove reqId).2 }, .finished)
    else some ({ s with tx := s.tx ++ [.dispatch reqId] }, .waiting reqId)
  | .sending reqId, .ends | .waiting reqId, .ends =>
    some ({ s with dispatches := (s.dispatches.remove reqId).2 }, .finished)
  | _, _ => none

inductive SupervisorStep
  | spawned
  | childExits
  | takeCommand
  | pollIdle
  | drainTimeout
  | extensionHandle
  | sendShutdown
  | removeGeneration
  | unroute
  | clear
  deriving DecidableEq, Repr

/-- A poll of `wait_for_extension_drain` ends the wait when the window is idle or the
handle has gone. -/
def superviseExtension (s : State) : SupervisorStep → Option State
  | .spawned =>
    if s.supervisor = .starting then some { s with supervisor := .watching } else none
  | .childExits =>
    if s.supervisor = .watching ∨ s.supervisor = .stopping then
      some { s with supervisor := .ended }
    else none
  | .takeCommand =>
    match s.supervisor, s.commands with
    | .watching, .drainStop reason :: rest =>
      some { s with commands := rest, supervisor := .draining, reason := some reason }
    | .watching, .killAndRespawn :: rest =>
      some { s with commands := rest, supervisor := .ended }
    | _, _ => none
  | .pollIdle =>
    if s.supervisor = .draining ∧ (s.active = false ∨ s.dispatches.isIdle = true) then
      some { s with supervisor := .drained }
    else none
  | .drainTimeout =>
    if s.supervisor = .draining then some { s with supervisor := .drained } else none
  | .extensionHandle =>
    if s.supervisor = .drained then
      some { s with supervisor := if s.active then .sending else .stopping }
    else none
  | .sendShutdown =>
    if s.supervisor = .sending then
      some { s with
        tx := if s.writerGone then s.tx else s.tx ++ [.shutdown]
        supervisor := .stopping }
    else none
  | .removeGeneration =>
    if s.supervisor = .ended then some { s with active := false, supervisor := .removed }
    else none
  | .unroute =>
    if s.supervisor = .removed then some { s with routed := false, supervisor := .unrouted }
    else none
  | .clear =>
    if s.supervisor = .unrouted then
      some { s with dispatches := s.dispatches.clear, supervisor := .finished }
    else none

/-- `stop_removed_extensions` on this handle: unroute, then `DrainStop`. -/
def Reload.advance (s : State) : Reload → Option (State × Reload)
  | .read => some ({ s with routed := false }, .unrouted)
  | .unrouted =>
    some ({ s with commands := s.commands ++ [.drainStop .removedFromConfig] }, .finished)
  | .finished => none

/-- `loseRows`: the unroute of an earlier generation of the id. `shutdownState` sends the
`DrainStop` without an unroute. -/
inductive Action
  | lookUp
  | request (i : Nat) (step : RequestStep)
  | readLine (reqId : Uuid)
  | writerStops
  | loseRows
  | reload
  | reloadStep (i : Nat)
  | shutdownState
  | killAndRespawn
  | supervise (step : SupervisorStep)
  deriving DecidableEq, Repr

def step (s : State) : Action → Option State
  | .lookUp =>
    some { s with requests := s.requests ++ [if s.routed then .found else .finished] }
  | .request i step =>
    match s.requests[i]? with
    | some r => (r.advance s i step).map fun (s, r) => { s with requests := s.requests.set i r }
    | none => none
  | .readLine reqId =>
    if s.active then some { s with dispatches := (s.dispatches.remove reqId).2 } else none
  | .writerStops => some { s with writerGone := true }
  | .loseRows => some { s with routed := false }
  | .reload => if s.active then some { s with reloads := s.reloads ++ [.read] } else none
  | .reloadStep i =>
    match s.reloads[i]? with
    | some r => (r.advance s).map fun (s, r) => { s with reloads := s.reloads.set i r }
    | none => none
  | .shutdownState =>
    some { s with commands := s.commands ++ [.drainStop .serverShutdown] }
  | .killAndRespawn => some { s with commands := s.commands ++ [.killAndRespawn] }
  | .supervise step => superviseExtension s step

/-! ## The property and its condition -/

/-- No dispatch stands behind a shutdown. -/
def Ordered (s : State) : Prop :=
  ∀ reqId, ¬ [.shutdown, .dispatch reqId].Sublist s.tx

/-- Shutdown is enqueued only while no request stands between its route lookup and its
send; after it no request looks the route up, unless a reload has unrouted first. -/
def Quiet (s : State) : Action → Prop
  | .supervise .sendShutdown => ∀ r ∈ s.requests, r.settled = true
  | .lookUp => .shutdown ∈ s.tx → s.reason = some .removedFromConfig
  | _ => True

instance (s : State) (a : Action) : Decidable (Quiet s a) := by
  unfold Quiet
  split
  · exact inferInstance
  · exact inferInstance
  · exact isTrue trivial

/-! ## What a step does -/

variable {s t : State} {r r' : Request} {i : Nat}

/-- A request changes the window, and enqueues at most one dispatch unless it is settled. -/
theorem Request.advance_frame {step : RequestStep} (h : r.advance s i step = some (t, r')) :
    (∃ window tx, t = { s with dispatches := window, tx := tx } ∧
      (tx = s.tx ∨ r.settled = false ∧ ∃ reqId, tx = s.tx ++ [.dispatch reqId])) ∧
      (r.settled = true → r'.settled = true) := by
  unfold Request.advance at h
  split at h
  case h_4 =>
    split at h
    · cases h
      exact ⟨⟨_, _, rfl, .inl rfl⟩, nofun⟩
    · cases h
      exact ⟨⟨_, _, rfl, .inl rfl⟩, nofun⟩
  case h_6 reqId =>
    split at h
    · cases h
      exact ⟨⟨_, _, rfl, .inl rfl⟩, fun _ => rfl⟩
    · cases h
      exact ⟨⟨_, _, rfl, .inr ⟨rfl, reqId, rfl⟩⟩, fun _ => rfl⟩
  case h_9 => cases h
  all_goals
    cases h
    exact ⟨⟨_, _, rfl, .inl rfl⟩, by simp [Request.settled]⟩

/-- What the supervisor leaves alone, and where its reason comes from. -/
structure SupervisorFrame (s t : State) : Prop where
  requests : t.requests = s.requests
  reloads : t.reloads = s.reloads
  commands : ∀ c ∈ t.commands, c ∈ s.commands
  routed : s.routed = false → t.routed = false
  reason : t.reason = s.reason ∨ ∃ reason, t.reason = some reason ∧ .drainStop reason ∈ s.commands

theorem superviseExtension_frame {step : SupervisorStep}
    (h : superviseExtension s step = some t) : SupervisorFrame s t ∧
      (t.tx = s.tx ∨ step = .sendShutdown ∧ t.tx = s.tx ++ [.shutdown]) := by
  cases step with
  | takeCommand =>
    simp only [superviseExtension] at h
    split at h
    · rename_i reason rest _ commands
      cases h
      refine ⟨⟨rfl, rfl, ?_, id, .inr ⟨reason, rfl, ?_⟩⟩, .inl rfl⟩
      · simp +contextual [commands]
      · simp [commands]
    · rename_i rest _ commands
      cases h
      refine ⟨⟨rfl, rfl, ?_, id, .inl rfl⟩, .inl rfl⟩
      simp +contextual [commands]
    · cases h
  | sendShutdown =>
    simp only [superviseExtension] at h
    split at h
    · cases h
      refine ⟨⟨rfl, rfl, fun _ mem => mem, id, .inl rfl⟩, ?_⟩
      by_cases gone : s.writerGone = true
      · simp [gone]
      · simp [gone]
    · cases h
  | _ =>
    simp only [superviseExtension] at h
    split at h
    · cases h
      exact ⟨⟨rfl, rfl, fun _ mem => mem, by simp, .inl rfl⟩, .inl rfl⟩
    · cases h

/-! ## The invariant -/

/-- Behind its unroute a reload leaves no row, up to the end of the drain it asked for. -/
def UnroutedFirst (s : State) : Prop :=
  .unrouted ∈ s.reloads ∨ .drainStop .removedFromConfig ∈ s.commands ∨
    s.reason = some .removedFromConfig → s.routed = false

structure Safe (s : State) : Prop where
  unroutedFirst : UnroutedFirst s
  settled : .shutdown ∈ s.tx → ∀ r ∈ s.requests, r.settled = true
  ordered : Ordered s

theorem safe_registered (n : Nat) : Safe (registered n) := by
  constructor
  · intro h
    simp [registered] at h
  · intro h
    cases h
  · intro reqId h
    cases h

/-- Steps that neither enqueue nor change a request. -/
theorem Safe.frame (safe : Safe s) (unrouted : UnroutedFirst t) (tx : t.tx = s.tx)
    (requests : t.requests = s.requests) : Safe t := by
  constructor
  · exact unrouted
  · rw [tx, requests]
    exact safe.settled
  · unfold Ordered
    rw [tx]
    exact safe.ordered

theorem ordered_dispatch {tx : List SrvMsg} {reqId : Uuid} (none : .shutdown ∉ tx)
    (other : Uuid) : ¬ [.shutdown, .dispatch other].Sublist (tx ++ [.dispatch reqId]) := by
  intro late
  have mem : SrvMsg.shutdown ∈ tx ++ [.dispatch reqId] := List.Sublist.subset late (by simp)
  simp [none] at mem

theorem ordered_shutdown {tx : List SrvMsg}
    (ordered : ∀ reqId, ¬ [.shutdown, .dispatch reqId].Sublist tx) (reqId : Uuid) :
    ¬ [.shutdown, .dispatch reqId].Sublist (tx ++ [.shutdown]) := by
  intro late
  have back := List.reverse_sublist.mpr late
  simp only [List.reverse_append, List.reverse_cons, List.reverse_nil, List.nil_append,
    List.singleton_append] at back
  cases back with
  | cons _ rest =>
    apply ordered reqId
    have := List.reverse_sublist.mpr rest
    simpa using this

theorem lookUp_safe (safe : Safe s) (quiet : Quiet s .lookUp)
    (hs : step s .lookUp = some t) : Safe t := by
  cases hs
  refine ⟨safe.unroutedFirst, ?_, safe.ordered⟩
  intro sent r mem
  have missed : s.routed = false := safe.unroutedFirst (.inr (.inr (quiet sent)))
  obtain mem | mem := List.mem_append.mp mem
  · exact safe.settled sent r mem
  · rw [missed] at mem
    simp only [Bool.false_eq_true, if_false, List.mem_singleton] at mem
    subst mem
    rfl

theorem request_safe (safe : Safe s) {step' : RequestStep}
    (hs : step s (.request i step') = some t) : Safe t := by
  simp only [step] at hs
  split at hs
  · rename_i r here
    obtain ⟨⟨u, r'⟩, moved, rfl⟩ := Option.map_eq_some_iff.mp hs
    obtain ⟨⟨window, tx, rfl, sent⟩, keeps⟩ := Request.advance_frame moved
    have mem : r ∈ s.requests := List.mem_of_getElem? here
    refine ⟨safe.unroutedFirst, ?_, ?_⟩
    · intro closed other inside
      have before : .shutdown ∈ s.tx := by
        obtain rfl | ⟨_, reqId, rfl⟩ := sent
        · exact closed
        · simpa using closed
      obtain inside | rfl := List.mem_or_eq_of_mem_set inside
      · exact safe.settled before other inside
      · exact keeps (safe.settled before r mem)
    · intro other
      obtain rfl | ⟨open', reqId, rfl⟩ := sent
      · exact safe.ordered other
      · apply ordered_dispatch
        intro closed
        rw [safe.settled closed r mem] at open'
        cases open'
  · cases hs

theorem supervise_safe (safe : Safe s) {step' : SupervisorStep}
    (quiet : Quiet s (.supervise step')) (hs : step s (.supervise step') = some t) : Safe t := by
  obtain ⟨frame, sent⟩ := superviseExtension_frame hs
  have unrouted : UnroutedFirst t := by
    intro promised
    apply frame.routed
    apply safe.unroutedFirst
    rw [frame.reloads] at promised
    obtain reload | command | taken := promised
    · exact .inl reload
    · exact .inr (.inl (frame.commands _ command))
    · obtain same | ⟨reason, now, queued⟩ := frame.reason
      · exact .inr (.inr (same ▸ taken))
      · rw [taken] at now
        cases now
        exact .inr (.inl queued)
  obtain same | ⟨rfl, sent⟩ := sent
  · exact safe.frame unrouted same frame.requests
  · constructor
    · exact unrouted
    · intro _
      rw [frame.requests]
      exact quiet
    · unfold Ordered
      rw [sent]
      exact ordered_shutdown safe.ordered

theorem reloadStep_safe (safe : Safe s) (hs : step s (.reloadStep i) = some t) : Safe t := by
  simp only [step] at hs
  split at hs
  · rename_i reload here
    obtain ⟨⟨u, next⟩, moved, rfl⟩ := Option.map_eq_some_iff.mp hs
    cases reload with
    | read =>
      cases moved
      exact safe.frame (fun _ => rfl) rfl rfl
    | unrouted =>
      cases moved
      have gone : s.routed = false := safe.unroutedFirst (.inl (List.mem_of_getElem? here))
      exact safe.frame (fun _ => gone) rfl rfl
    | finished => cases moved
  · cases hs

theorem step_safe (safe : Safe s) {a : Action} (quiet : Quiet s a) (hs : step s a = some t) :
    Safe t := by
  cases a with
  | lookUp => exact lookUp_safe safe quiet hs
  | request i step' => exact request_safe safe hs
  | supervise step' => exact supervise_safe safe quiet hs
  | reloadStep i => exact reloadStep_safe safe hs
  | readLine reqId =>
    simp only [step] at hs
    split at hs
    · cases hs
      exact safe.frame safe.unroutedFirst rfl rfl
    · cases hs
  | reload =>
    simp only [step] at hs
    split at hs
    · cases hs
      refine safe.frame ?_ rfl rfl
      intro promised
      apply safe.unroutedFirst
      simpa using promised
    · cases hs
  | writerStops =>
    cases hs
    exact safe.frame safe.unroutedFirst rfl rfl
  | loseRows =>
    cases hs
    exact safe.frame (fun _ => rfl) rfl rfl
  | shutdownState | killAndRespawn =>
    cases hs
    refine safe.frame ?_ rfl rfl
    intro promised
    apply safe.unroutedFirst
    simpa using promised

/-- Along every run in which no request is under way when Shutdown is enqueued and none
comes in after it but behind an unroute, no dispatch is enqueued after Shutdown. -/
theorem no_dispatch_after_shutdown
    (run : Reaches (fun s => ∃ n, s = registered n) step Quiet s) : Ordered s := by
  have safe : Safe s := by
    apply run.invariant Safe
    · rintro _ ⟨n, rfl⟩
      exact safe_registered n
    · intro s a t _ safe quiet hs
      exact step_safe safe quiet hs
  exact safe.ordered

/-- A reload drains an extension with one dispatch in flight; a late request misses. -/
def drainBusy : List Action :=
  [.supervise .spawned, .lookUp, .request 0 .cloneHandle, .request 0 (.reserve 4),
    .request 0 (.insert 7), .reload, .request 0 .send, .reloadStep 0, .reloadStep 0,
    .supervise .takeCommand, .readLine 7, .supervise .pollIdle, .supervise .extensionHandle,
    .supervise .sendShutdown, .lookUp]

theorem no_dispatch_after_shutdown_reload :
    ∃ s, exec (guarded Quiet step) (registered 0) drainBusy = some s ∧
      s.tx = [.dispatch 7, .shutdown] ∧ Ordered s := by
  have run : (exec (guarded Quiet step) (registered 0) drainBusy).map State.tx =
      some [.dispatch 7, .shutdown] := by decide
  obtain ⟨s, hs, tx⟩ := Option.map_eq_some_iff.mp run
  exact ⟨s, hs, tx, no_dispatch_after_shutdown (reaches_of_exec _ (.start ⟨0, rfl⟩) hs)⟩

theorem not_ordered_of_exec (actions : List Action) (reqId : Uuid)
    (run : (exec (guarded (fun _ _ => True) step) (registered 0) actions).map State.tx =
      some [.shutdown, .dispatch reqId]) :
    ¬ ∀ s, Reaches (fun s => ∃ n, s = registered n) step (fun _ _ => True) s → Ordered s := by
  intro claim
  obtain ⟨s, hs, tx⟩ := Option.map_eq_some_iff.mp run
  apply claim s (reaches_of_exec _ (.start ⟨0, rfl⟩) hs) reqId
  rw [tx]

/-- The request has cloned the handle when the reload unroutes; the window is idle until
after Shutdown, when the request reserves and sends. -/
theorem dispatch_after_shutdown :
    ¬ ∀ s, Reaches (fun s => ∃ n, s = registered n) step (fun _ _ => True) s → Ordered s :=
  not_ordered_of_exec
    [.supervise .spawned, .lookUp, .request 0 .cloneHandle, .reload, .reloadStep 0,
      .reloadStep 0, .supervise .takeCommand, .supervise .pollIdle,
      .supervise .extensionHandle, .supervise .sendShutdown, .request 0 (.reserve 4),
      .request 0 (.insert 7), .request 0 .send] 7 (by decide)

-- On server shutdown nothing unroutes, and a request may even come in after Shutdown.
example : ¬ ∀ s, Reaches (fun s => ∃ n, s = registered n) step (fun _ _ => True) s → Ordered s :=
  not_ordered_of_exec
    [.supervise .spawned, .shutdownState, .supervise .takeCommand, .supervise .pollIdle,
      .supervise .extensionHandle, .supervise .sendShutdown, .lookUp, .request 0 .cloneHandle,
      .request 0 (.reserve 4), .request 0 (.insert 7), .request 0 .send] 7 (by decide)

end Whdr.Drain
