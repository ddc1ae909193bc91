import Whdr.Delivery.Reported
import Whdr.Lib.Progress

/-! A client catches up: once no fan-out is under way, whatever the server and the client do
next comes to an end, and then every wanted row was handled or the client was stopped. -/
namespace Whdr.Network

open Runs (Reaches Settles Stuck)
open SubscriberWs (requested)

/-! ## The quiet steps -/

/-- What the client and the server do by themselves. A client leaves a connection that its
server has left. -/
def Quiet (s : State) : Action → Prop
  | .connect | .subscribe | .loadFloor | .loadHead | .readRows | .popFrame | .sendFrame
  | .receive => True
  | .disconnect => ∀ x ∈ s.session, x.task = .ended ∧ x.wire = []
  | .plane _ | .restart | .close _ | .dropConnection => False

/-- Nothing is stamped that is not pushed, and the numbers are not used up. -/
structure Idle (c0 : Nat) (s : State) : Prop where
  pending : s.plane.pending = []
  writer : s.plane.writer.rows = []
  first : c0 + 1 < u64Size
  head : s.plane.head + 1 < u64Size

/-- Every committed row past the first cursor that a pattern matches was handled. -/
def CaughtUp (P : List Pattern) (c0 : Nat) (s : State) : Prop :=
  ∀ row, s.plane.Committed row → c0 < row.seq → anyMatches P row.channel = true →
    row ∈ s.client.handled

/-! ## What is left to do -/

/-- The client leaves the connection on reading it. -/
def ends : SubServerMsg → Bool
  | .lagged _ | .closing _ => true
  | _ => false

def frameEnds (frame : Frame) : Bool := frame.closing || ends frame.msg

def Task.ends : Task → Bool
  | .ended => true
  | .holding _ frame => frameEnds frame
  | .welcomed | .replaying _ _ _ | .streaming _ => false

def queueEnds (q : OutboundQueue) : Bool := decide (0 < q.lagPending) || q.inner.any frameEnds

def queueIn (r : SubscriberRegistry) (conn : Nat) : OutboundQueue :=
  match r.subscribers.get? conn with
  | some sub => sub.queue
  | none => .new 0 0

/-- The connection will end by what is already on its way. -/
def doomed (r : SubscriberRegistry) (x : Session) : Bool :=
  x.task.ends || x.wire.any ends || queueEnds (queueIn r x.conn)

def rowCount (r : SubscriberRegistry) : Nat :=
  match r.delivery with
  | some shared => shared.db.entries.length
  | none => 0

/-- The steps left to a task, and the frames its replay will put on the wire. -/
def Task.work (rows : Nat) : Task → Nat
  | .welcomed => rows + 7
  | .replaying _ _ .registered => rows + 6
  | .replaying _ _ (.floorLoaded _) => rows + 5
  | .replaying _ _ (.headLoaded _ _) => rows + 4
  | .holding _ _ => 3
  | .streaming _ | .ended => 0

def sessionWork (r : SubscriberRegistry) (x : Session) : Nat :=
  x.wire.length + x.task.work (rowCount r) + 4 * (queueIn r x.conn).inner.length

/-- A connection from its beginning. -/
def fresh (r : SubscriberRegistry) : Nat := rowCount r + 9

def work (s : State) : Nat :=
  match s.session with
  | none => if s.stopped then 0 else fresh s.plane.registry
  | some x => sessionWork s.plane.registry x +
      if doomed s.plane.registry x then fresh s.plane.registry + 1 else 0

variable {cfg : Config} {c0 : Nat} {s t : State} {x : Session} {sub : Subscriber}
  {r : SubscriberRegistry} {task : Task} {wire : List SubServerMsg} {msg : SubServerMsg} {a : Action}

theorem more_iff (c : Client) (msg : SubServerMsg) :
    (c.onFrame msg).2 = .more ↔ ends msg = false := by
  cases msg with
  | closing reason => cases reason <;> simp [Client.onFrame, Client.closingIsFatal, ends]
  | _ => simp [Client.onFrame, ends]

theorem queueIn_of_entry {conn : Nat} (entry : r.subscribers.get? conn = some sub) :
    queueIn r conn = sub.queue := by
  rw [queueIn, entry]

/-! ## Every step takes from it -/

/-- The plane is as it was but for the entries of connections, and less is left. -/
structure Lowers (s t : State) : Prop where
  pending : t.plane.pending = s.plane.pending
  writer : t.plane.writer = s.plane.writer
  delivery : t.plane.registry.delivery = s.plane.registry.delivery
  less : work t < work s

/-- A step of the session that goes on. -/
theorem lowers_set (hx : s.session = some x)
    (delivery : r.delivery = s.plane.registry.delivery)
    (less : wire.length + task.work (rowCount s.plane.registry) +
      4 * (queueIn r x.conn).inner.length < sessionWork s.plane.registry x)
    (doom : doomed r ⟨x.conn, task, wire⟩ = true → doomed s.plane.registry x = true) :
    Lowers s ((s.setRegistry r).setSession ⟨x.conn, task, wire⟩) := by
  have rows : rowCount r = rowCount s.plane.registry := by rw [rowCount, delivery]; rfl
  refine ⟨rfl, rfl, delivery, ?_⟩
  simp only [work, hx, State.setSession, State.setRegistry, sessionWork, fresh, rows]
  simp only [sessionWork] at less
  split
  · rename_i isDoomed
    rw [if_pos (doom isDoomed)]
    omega
  · omega

/-- The client leaves a connection that was to end. -/
theorem lowers_leave (hx : s.session = some x) (doom : doomed s.plane.registry x = true)
    (plane : t.plane = s.plane) (session : t.session = none) : Lowers s t := by
  refine ⟨by rw [plane], by rw [plane], by rw [plane], ?_⟩
  simp only [work, hx, session, plane, doom, if_true]
  split <;> omega

theorem subscribe_lowers (hv : Valid (requested cfg.patterns) c0 s) {parsed : List Pattern}
    (parses : SubscriberRegistry.parsePatterns cfg.patterns = .ok parsed)
    (hx : s.session = some x) (hs : sessionStep cfg s x .subscribe = some t) : Lowers s t := by
  simp only [sessionStep] at hs
  split at hs
  · rename_i welcomed
    obtain ⟨shared, low, last, plane⟩ := hv.plane
    obtain ⟨sub, attached⟩ := attached_of_running hv hx (by simp [welcomed])
    simp only [SubscriberWs.handleSubscriberText, SubscriberRegistry.subscribe, parses,
      (SubscriberRegistry.modify_same s.plane.registry x.conn _).1, plane.delivery] at hs
    cases hs
    have queue := queueIn_of_entry (SubscriberRegistry.get?_modify_self attached.entry fun sub =>
      { sub with patterns := SubscriberRegistry.addPatterns sub.patterns parsed })
    have before := queueIn_of_entry attached.entry
    apply lowers_set hx (SubscriberRegistry.modify_same ..).1
    · simp only [queue, sessionWork, before, welcomed, Task.work]
      omega
    · simp only [doomed, queue, before, welcomed, Task.ends]
      exact id
  · cases hs

theorem replay_length {checks : Bool} {afterSeq floor head : Nat} {patterns : List Pattern}
    {shared : DeliveryLog.Shared} {frames : List SubServerMsg}
    (hf : SubscriberWs.replayFrames checks afterSeq patterns floor head shared.db = some frames) :
    frames.length ≤ shared.db.entries.length + 3 ∧ frames.any ends = false := by
  obtain ⟨gap, _, rfl⟩ := Option.map_eq_some_iff.mp hf
  have rows : ((DeliveryLog.readAfter shared.db (if gap then floor - 1 else afterSeq)
      (some patterns)).takeWhile fun row => decide (row.seq ≤ head)).length ≤
      shared.db.entries.length :=
    Nat.le_trans (List.takeWhile_sublist _).length_le
      (Nat.le_trans (List.length_filterMap_le _ _) (List.length_filter_le _ _))
  constructor
  · cases gap <;> simp only [List.length_cons, List.length_append, List.length_map,
      List.length_nil, if_true, Bool.false_eq_true, if_false] at rows ⊢ <;> omega
  · rw [List.any_eq_false]
    intro msg mem
    simp only [List.mem_cons, List.mem_append, List.mem_map, List.not_mem_nil, or_false] at mem
    obtain rfl | (gapped | ⟨row, _, rfl⟩) | rfl := mem
    · simp [ends]
    · cases gap with
      | true => obtain rfl := List.mem_singleton.mp gapped; simp [ends]
      | false => cases gapped
    · simp [ends]
    · simp [ends]

theorem cursor_next (hv : Valid (requested cfg.patterns) c0 s) (idle : Idle c0 s) :
    s.client.resume.cursor + 1 < u64Size := by
  have first := idle.first
  have head := idle.head
  obtain same | le := hv.client.cursor
  · omega
  · have le : s.client.resume.cursor ≤ s.plane.head := le
    omega

theorem loads_lowers (hv : Valid (requested cfg.patterns) c0 s) (idle : Idle c0 s)
    (hx : s.session = some x) (load : a = .loadFloor ∨ a = .loadHead ∨ a = .readRows)
    (hs : sessionStep cfg s x a = some t) : Lowers s t := by
  obtain ⟨shared, low, last, plane⟩ := hv.plane
  obtain rfl | rfl | rfl := load
  · simp only [sessionStep, plane.delivery] at hs
    split at hs
    · rename_i after parsed _ task log
      cases hs
      apply lowers_set (r := s.plane.registry) hx rfl
      · simp only [sessionWork, task, Task.work]
        omega
      · simp only [doomed, task, Task.ends]
        exact id
    · cases hs
  · simp only [sessionStep, plane.delivery] at hs
    split at hs
    · rename_i after parsed floor _ task log
      cases hs
      apply lowers_set (r := s.plane.registry) hx rfl
      · simp only [sessionWork, task, Task.work]
        omega
      · simp only [doomed, task, Task.ends]
        exact id
    · cases hs
  · simp only [sessionStep, plane.delivery] at hs
    split at hs
    · rename_i after parsed floor head shared' task log
      cases log
      obtain ⟨sub, attached⟩ := attached_of_running hv hx (by simp [task])
      have valid := attached.task
      rw [task] at valid
      -- the cursor asked for is far from the largest number
      have next : after + 1 < u64Size := valid.2.1 ▸ cursor_next hv idle
      have gap : ∃ gap, SubscriberWs.predatesFloor cfg.checks after floor = some gap := by
        unfold SubscriberWs.predatesFloor
        split
        · exact ⟨_, rfl⟩
        · rw [SubscriberWs.addU64, if_pos next]
          exact ⟨_, rfl⟩
      obtain ⟨gap, isGap⟩ := gap
      split at hs
      · rename_i frames read
        cases hs
        obtain ⟨length, quiet⟩ := replay_length read
        have rows : rowCount s.plane.registry = shared.db.entries.length := by
          rw [rowCount, plane.delivery]
        apply lowers_set (r := s.plane.registry) hx rfl
        · simp only [sessionWork, task, Task.work, List.length_append, rows]
          omega
        · simp only [doomed, task, Task.ends, List.any_append, quiet, Bool.or_false]
          exact id
      · rename_i panics
        rw [SubscriberWs.replayFrames, isGap] at panics
        cases panics
    · cases hs

theorem popFrame_lowers (hx : s.session = some x) (hs : sessionStep cfg s x .popFrame = some t) :
    Lowers s t := by
  simp only [sessionStep] at hs
  split at hs
  · rename_i through task
    obtain ⟨⟨frame, r⟩, popped, rfl⟩ := Option.map_eq_some_iff.mp hs
    have delivery := popFrame_delivery popped
    unfold SubscriberRegistry.popFrame at popped
    split at popped
    · cases popped
    · rename_i sub entry
      obtain ⟨⟨first, queue⟩, taken, same⟩ := Option.map_eq_some_iff.mp popped
      cases same
      have after : queueIn { s.plane.registry with
          subscribers := s.plane.registry.subscribers.insert x.conn { sub with queue := queue } }
          x.conn = queue := by
        simp only [queueIn, OrdMap.get?_insert_self]
      have before := queueIn_of_entry entry
      unfold OutboundQueue.pop at taken
      split at taken
      · cases taken
      · rename_i rest inner
        cases taken
        apply lowers_set hx delivery
        · simp only [after, sessionWork, before, task, Task.work, inner, List.length_cons]
          omega
        · simp only [doomed, after, before, task, Task.ends, queueEnds, inner, List.any_cons,
            Bool.or_eq_true, Bool.false_eq_true, false_or]
          rintro ((frame | wire) | lag | queue)
          · exact .inr (.inr (.inl frame))
          · exact .inl wire
          · exact .inr (.inl lag)
          · exact .inr (.inr (.inr queue))
  · cases hs

theorem sent_spec (q : OutboundQueue) (frame : Frame) :
    (sent q.takePendingLag.1 frame).length ≤ 2 ∧
      ((sent q.takePendingLag.1 frame).any ends = true →
        frameEnds frame = true ∨ 0 < q.lagPending) := by
  unfold sent OutboundQueue.takePendingLag
  by_cases none : q.lagPending = 0
  · simp only [none, if_true, List.nil_append, List.length_singleton, List.any_cons, List.any_nil,
      Bool.or_false]
    refine ⟨by omega, fun last => .inl ?_⟩
    rw [frameEnds, last, Bool.or_true]
  · simp only [none, if_false]
    exact ⟨Nat.le_refl 2, fun _ => .inr (Nat.pos_of_ne_zero none)⟩

theorem sendFrame_lowers (hx : s.session = some x)
    (hs : sessionStep cfg s x .sendFrame = some t) : Lowers s t := by
  simp only [sessionStep] at hs
  split at hs
  · rename_i through frame sub task entry
    have before := queueIn_of_entry entry
    obtain ⟨length, last⟩ := sent_spec sub.queue frame
    split at hs
    · rename_i closing
      cases hs
      apply lowers_set (r := SubscriberRegistry.remove _ x.conn) hx
      · exact (SubscriberRegistry.modify_same ..).1
      · have gone (r : SubscriberRegistry) : queueIn (r.remove x.conn) x.conn = .new 0 0 := by
          simp only [queueIn, SubscriberRegistry.remove, OrdMap.get?_erase, if_true]
        simp only [State.setRegistry, gone, OutboundQueue.new, List.length_nil, List.length_append,
          sessionWork, before, task, Task.work]
        omega
      · intro _
        simp only [doomed, task, Task.ends, frameEnds, closing, Bool.true_or]
    · cases hs
      have after := queueIn_of_entry (SubscriberRegistry.get?_modify_self entry fun sub' =>
        { sub' with queue := sub.queue.takePendingLag.2 })
      apply lowers_set hx (SubscriberRegistry.modify_same ..).1
      · rw [after]
        simp only [sessionWork, before, task, Task.work, List.length_append,
          OutboundQueue.takePendingLag] at length ⊢
        omega
      · simp only [doomed, after, before, task, Task.ends, queueEnds, List.any_append]
        simp only [OutboundQueue.takePendingLag, Bool.or_eq_true, Bool.false_eq_true, false_or,
          decide_eq_true_eq, Nat.lt_irrefl]
        rintro ((wire | sent) | queue)
        · exact .inl (.inr wire)
        · obtain frame | lag := last sent
          · exact .inl (.inl frame)
          · exact .inr (.inl lag)
        · exact .inr (.inr queue)
  · cases hs

theorem receive_lowers (hx : s.session = some x)
    (hs : sessionStep cfg s x .receive = some t) : Lowers s t := by
  simp only [sessionStep] at hs
  split at hs
  · cases hs
  · rename_i msg rest hw
    cases hs
    have doom : (s.client.onFrame msg).2 ≠ .more → doomed s.plane.registry x = true := by
      intro leaves
      have last : ends msg = true := by
        rw [← Bool.not_eq_false, ← more_iff s.client msg]
        exact leaves
      simp only [doomed, hw, List.any_cons, last, Bool.true_or, Bool.or_true]
    rcases flow : s.client.onFrame msg with ⟨client, after⟩
    rw [flow] at doom
    simp only [receive, flow]
    cases after with
    | more =>
      have last : ends msg = false := by rw [← more_iff s.client msg, flow]
      have same : doomed s.plane.registry { x with wire := rest } = doomed s.plane.registry x := by
        simp only [doomed, hw, List.any_cons, last, Bool.false_or]
      refine ⟨rfl, rfl, rfl, ?_⟩
      simp only [work, hx, State.setSession, same, sessionWork, hw, List.length_cons]
      omega
    | reconnect => exact lowers_leave hx (doom (by rintro ⟨⟩)) rfl rfl
    | stop => exact lowers_leave hx (doom (by rintro ⟨⟩)) rfl rfl

theorem connect_lowers (hs : step cfg s .connect = some t) : Lowers s t := by
  simp only [step] at hs
  split at hs
  · cases hs
  · rename_i running
    split at hs
    · cases hs
    · rename_i none
      cases hs
      refine ⟨rfl, rfl, rfl, ?_⟩
      have queue (r : SubscriberRegistry) (reg : SubscriberRegistration) :
          queueIn (r.insert reg).2 (r.insert reg).1 = reg.queue := by
        simp only [queueIn, SubscriberRegistry.insert, OrdMap.get?_insert_self]
      simp only [work, State.setSession, State.setRegistry, sessionWork, doomed, queue, none,
        running]
      simp only [OutboundQueue.new, queueEnds, Task.ends, Task.work, fresh, rowCount,
        SubscriberRegistry.insert, List.any_cons, List.any_nil, ends, List.length_cons,
        List.length_nil]
      simp only [Nat.not_lt_zero, decide_false, Bool.or_self, Bool.false_eq_true, if_false]
      omega

theorem disconnect_lowers (quiet : Quiet s .disconnect) (hx : s.session = some x)
    (hs : sessionStep cfg s x .disconnect = some t) : Lowers s t := by
  cases hs
  obtain ⟨ended, _⟩ := quiet x hx
  refine lowers_leave hx ?_ rfl rfl
  simp only [doomed, ended, Task.ends, Bool.true_or]

/-- A quiet step keeps the plane quiet, and the run has less to do. -/
theorem quiet_lowers (hv : Valid (requested cfg.patterns) c0 s) (idle : Idle c0 s)
    {parsed : List Pattern} (parses : SubscriberRegistry.parsePatterns cfg.patterns = .ok parsed)
    (quiet : Quiet s a) (hs : step cfg s a = some t) : Lowers s t := by
  have session : (s.session.bind fun x => sessionStep cfg s x a) = some t →
      ∃ x, s.session = some x ∧ sessionStep cfg s x a = some t :=
    fun hs => Option.bind_eq_some_iff.mp hs
  cases a with
  | connect => exact connect_lowers hs
  | subscribe =>
    obtain ⟨x, hx, hs⟩ := session hs
    exact subscribe_lowers hv parses hx hs
  | loadFloor =>
    obtain ⟨x, hx, hs⟩ := session hs
    exact loads_lowers hv idle hx (.inl rfl) hs
  | loadHead =>
    obtain ⟨x, hx, hs⟩ := session hs
    exact loads_lowers hv idle hx (.inr (.inl rfl)) hs
  | readRows =>
    obtain ⟨x, hx, hs⟩ := session hs
    exact loads_lowers hv idle hx (.inr (.inr rfl)) hs
  | popFrame =>
    obtain ⟨x, hx, hs⟩ := session hs
    exact popFrame_lowers hx hs
  | sendFrame =>
    obtain ⟨x, hx, hs⟩ := session hs
    exact sendFrame_lowers hx hs
  | receive =>
    obtain ⟨x, hx, hs⟩ := session hs
    exact receive_lowers hx hs
  | disconnect =>
    obtain ⟨x, hx, hs⟩ := session hs
    exact disconnect_lowers quiet hx hs
  | plane | restart | close | dropConnection => exact absurd quiet id

/-! ## Where no step is left -/

/-- What is kept of a run that has come to its quiet part. -/
structure Settling (cfg : Config) (c0 : Nat) (s : State) : Prop where
  valid : Valid (requested cfg.patterns) c0 s
  reported : Reported cfg s
  idle : Idle c0 s

theorem settling_step {parsed : List Pattern}
    (parses : SubscriberRegistry.parsePatterns cfg.patterns = .ok parsed)
    (h : Settling cfg c0 s) (quiet : Quiet s a) (hs : step cfg s a = some t) :
    Settling cfg c0 t ∧ work t < work s := by
  obtain ⟨valid, reported, idle⟩ := h
  have lowers := quiet_lowers valid idle parses quiet hs
  have lifetime : OneLifetime s a := by
    cases a with
    | plane | restart => exact absurd quiet id
    | _ => trivial
  have order : PushesInOrder (requested cfg.patterns) s a := by
    cases a with
    | plane => exact absurd quiet id
    | _ => trivial
  have fit : FramesFit cfg s a := by
    cases a with
    | plane => exact absurd quiet id
    | _ => trivial
  refine ⟨⟨step_valid valid lifetime order hs, step_reported valid reported parses lifetime fit hs,
    ?_⟩, lowers.less⟩
  refine ⟨lowers.pending.trans idle.pending, lowers.writer ▸ idle.writer, idle.first, ?_⟩
  have head : t.plane.head = s.plane.head := by
    rw [Plane.head, Plane.head, lowers.delivery]
  rw [head]
  exact idle.head

/-- A connection with nothing on its way has nothing to say any more. -/
theorem silent_caught_up (h : Settling cfg c0 s) (hx : s.session = some x) {through : Nat}
    (task : x.task = .streaming through) (wire : x.wire = [])
    (empty : (queueIn s.plane.registry x.conn).inner = []) :
    CaughtUp (requested cfg.patterns) c0 s := by
  obtain ⟨valid, reported, idle⟩ := h
  obtain ⟨sub, attached⟩ := attached_of_running valid hx (by simp [task])
  obtain ⟨_, report, subscribed⟩ := reported x sub hx (by simp [task]) attached.entry
  rw [queueIn_of_entry attached.entry] at empty
  have lag : sub.queue.lagPending = 0 := by
    by_contra pending
    obtain queued | ⟨_, _, holds⟩ := report (Nat.pos_of_ne_zero pending)
    · exact queued empty
    · cases task.symm.trans holds
  have silent : stream [] [] sub.queue = [] := by
    simp only [stream, lagFrame, lag, queued, empty]
    rfl
  have carries := attached.task
  rw [task, wire] at carries
  have complete := carries.complete
  simp only [silent, marks_nil] at complete
  intro row committed above wanted
  refine valid.client.sound row committed above ?_ wanted
  obtain none | ⟨_, complete⟩ := complete
  · have same := subscribed (by simp [task]) row.channel
    rw [none] at same
    cases same.trans wanted
  · obtain reached | ⟨_, later, unpushed, _⟩ | cut :=
      complete row.seq ⟨row, committed, wanted, rfl⟩
    · exact reached
    · obtain held | ⟨rows, pending, _⟩ := unpushed
      · rw [idle.writer] at held
        cases held
      · rw [idle.pending] at pending
        cases pending
    · cases cut

theorem stuck_caught_up (h : Settling cfg c0 s) (stuck : Stuck (step cfg) Quiet s) :
    s.stopped = true ∨ CaughtUp (requested cfg.patterns) c0 s := by
  cases running : s.stopped with
  | true => exact .inl rfl
  | false =>
    refine .inr ?_
    have refused {a : Action} (quiet : Quiet s a) : step cfg s a = none :=
      Option.eq_none_iff_forall_ne_some.mpr fun t hs => stuck a t quiet hs
    cases hx : s.session with
    | none =>
      have connects := refused (a := .connect) trivial
      simp only [step, running, hx] at connects
      cases connects
    | some x =>
      have idle {a : Action} (quiet : Quiet s a) (isSession : step cfg s a =
          s.session.bind fun x => sessionStep cfg s x a) : sessionStep cfg s x a = none := by
        have no := isSession.symm.trans (refused quiet)
        rwa [hx] at no
      obtain ⟨shared, low, last, plane⟩ := h.valid.plane
      cases wire : x.wire with
      | cons msg rest =>
        have reads := idle (a := .receive) trivial rfl
        simp only [sessionStep, wire] at reads
        cases reads
      | nil =>
        cases task : x.task with
        | welcomed =>
          have asks := idle (a := .subscribe) trivial rfl
          simp only [sessionStep, task] at asks
          split at asks <;> cases asks
        | replaying after parsed stage =>
          cases stage with
          | registered =>
            have loads := idle (a := .loadFloor) trivial rfl
            simp only [sessionStep, task, plane.delivery] at loads
            cases loads
          | floorLoaded floor =>
            have loads := idle (a := .loadHead) trivial rfl
            simp only [sessionStep, task, plane.delivery] at loads
            cases loads
          | headLoaded floor head =>
            have reads := idle (a := .readRows) trivial rfl
            simp only [sessionStep, task, plane.delivery] at reads
            split at reads <;> cases reads
        | holding through frame =>
          obtain ⟨sub, attached⟩ := attached_of_running h.valid hx (by simp [task])
          have sends := idle (a := .sendFrame) trivial rfl
          simp only [sessionStep, task, attached.entry] at sends
          split at sends <;> cases sends
        | ended =>
          have leaves := idle (a := .disconnect) ?_ rfl
          · cases leaves
          · intro y hy
            obtain rfl := Option.some.inj (hx.symm.trans hy)
            exact ⟨task, wire⟩
        | streaming through =>
          obtain ⟨sub, attached⟩ := attached_of_running h.valid hx (by simp [task])
          have pops := idle (a := .popFrame) trivial rfl
          simp only [sessionStep, task, SubscriberRegistry.popFrame, attached.entry,
            Option.map_eq_none_iff] at pops
          refine silent_caught_up h hx task wire ?_
          rw [queueIn_of_entry attached.entry]
          unfold OutboundQueue.pop at pops
          split at pops
          · assumption
          · cases pops

/-- Once no fan-out is under way: whatever the server and the client do, in any order, it
is over after a bounded number of steps, and then the client was stopped by a closing frame
or has handled every committed row past its first cursor that its patterns match. -/
theorem catches_up (cfg : Config) (c0 : Nat) (s : State) (parsed : List Pattern)
    (parses : SubscriberRegistry.parsePatterns cfg.patterns = .ok parsed)
    (h : Reaches (Starts cfg c0) (step cfg) (fun s a => OneLifetime s a ∧
      PushesInOrder (requested cfg.patterns) s a ∧ FramesFit cfg s a) s)
    (idle : Idle c0 s) :
    Settles (step cfg) Quiet
      (fun t => t.stopped = true ∨ CaughtUp (requested cfg.patterns) c0 t) (work s) s := by
  have inv : Valid (requested cfg.patterns) c0 s ∧ Reported cfg s :=
    h.invariant (fun s => Valid (requested cfg.patterns) c0 s ∧ Reported cfg s)
      (fun s starts => ⟨starts_valid starts, by
        obtain ⟨_, _, _, _, rfl⟩ := starts
        rintro x sub ⟨⟩⟩)
      fun _ _ _ _ inv ok hs => ⟨step_valid inv.1 ok.1 ok.2.1 hs,
        step_reported inv.1 inv.2 parses ok.1 ok.2.2 hs⟩
  exact Runs.settles (fun _ _ _ kept quiet hs => settling_step parses kept quiet hs)
    (fun _ kept stuck => stuck_caught_up kept stuck) ⟨inv.1, inv.2, idle⟩

instance (cfg : Config) (s : State) (a : Action) : Decidable (FramesFit cfg s a) :=
  match a with
  | .plane (.push _) => inferInstanceAs (Decidable (∀ row ∈ matching _ _, _ ≤ _))
  | .plane (.log _) | .plane (.stampInMemory _ _ _) | .plane (.connection _) | .restart | .connect
  | .subscribe | .loadFloor | .loadHead | .readRows | .popFrame | .sendFrame | .close _
  | .dropConnection | .receive | .disconnect => isTrue trivial

/-- The client has connected when the only event is stamped and pushed. -/
def oneFanout : List Action :=
  [.connect, .plane (.log (.commitRows (fun _ => 7) [⟨"dev.one", "MQ=="⟩] 0)),
    .plane (.log .storeHead), .plane (.log .raiseFloor), .plane (.push 0)]

theorem catches_up_one_fanout : ∃ parsed s,
    SubscriberRegistry.parsePatterns oneClient.patterns = .ok parsed ∧
      Reaches (Starts oneClient 0) (step oneClient) (fun s a => OneLifetime s a ∧
        PushesInOrder (requested oneClient.patterns) s a ∧ FramesFit oneClient s a) s ∧
      Idle 0 s ∧ s.client.handled = [] ∧ s.plane.head = 1 ∧
      Settles (step oneClient) Quiet
        (fun t => t.stopped = true ∨ CaughtUp (requested oneClient.patterns) 0 t) (work s) s := by
  have run : (Runs.exec (Runs.guarded (fun s a => OneLifetime s a ∧
      PushesInOrder (requested oneClient.patterns) s a ∧ FramesFit oneClient s a)
      (step oneClient)) newServer oneFanout).map (fun s =>
        (s.plane.pending, s.plane.writer.rows, s.plane.head, s.client.handled)) =
      some ([], [], 1, []) := by decide
  obtain ⟨s, hs, seen⟩ := Option.map_eq_some_iff.mp run
  simp only [Prod.mk.injEq] at seen
  obtain ⟨pending, writer, head, handled⟩ := seen
  have reached := Runs.reaches_of_exec _ (.start newServer_starts) hs
  have idle : Idle 0 s := ⟨pending, writer, by decide, by rw [head]; decide⟩
  exact ⟨_, s, rfl, reached, idle, handled, head, catches_up oneClient 0 s _ rfl reached idle⟩

end Whdr.Network
