import Whdr.Delivery.Flow

/-! The kit without a delivery log: what is in flight between one server process and the
client, and how each step keeps it in order. -/
namespace Whdr.Restarts

open Network SubscriberWs

/-! ## The runs -/

/-- Fan-outs are issued one at a time. -/
def OneAtATime (s : State) : Action → Prop
  | .plane (.stampInMemory _ _ _) => s.plane.pending = []
  | _ => True

/-- What a push adds to the queue of the client's connection. -/
def offeredToClient (s : State) (i : Nat) : List StampedEvent :=
  match s.session with
  | none => []
  | some x =>
    match x.live.bind s.plane.registry.subscribers.get?, s.plane.pending[i]? with
    | some sub, some rows => SubscriberRegistry.offeredTo sub rows
    | _, _ => []

/-- The server's counter has passed the client's cursor whenever an event is pushed to
the client. -/
def CounterAhead (s : State) : Action → Prop
  | .plane (.push i) => ∀ row ∈ offeredToClient s i, s.client.resume.cursor < row.seq
  | _ => True

/-- A new server without a log, and a client at any cursor. -/
def Starts (s : State) : Prop :=
  ∃ cursor capacity : Nat, s = ⟨⟨.new, .idle, []⟩, none, ⟨.new cursor capacity, []⟩, false, []⟩

/-- Every event frame the client has read is one whose id it has handled. -/
def OnlyDuplicatesDropped (s : State) : Prop :=
  ∀ e ∈ s.received, ∃ e' ∈ s.client.handled, e'.id = e.id

/-! ## The invariant -/

/-- The events in flight ascend, from above the cursor. -/
structure Ordered (cursor : Nat) (frames : List SubServerMsg) : Prop where
  ascending : (eventsOf frames).Pairwise fun a b => a.seq < b.seq
  above : ∀ e ∈ eventsOf frames, cursor < e.seq

/-- They are from the present server process: at or below its counter, and below what
it has stamped and not pushed. -/
def Current (p : Plane) (frames : List SubServerMsg) : Prop :=
  ∀ e ∈ eventsOf frames, e.seq ≤ p.registry.seq ∧
    ∀ rows ∈ p.pending, ∀ row ∈ rows, e.seq < row.seq

structure PlaneValid (p : Plane) : Prop where
  delivery : p.registry.delivery = none
  single : p.pending.length ≤ 1
  ascending : ∀ rows ∈ p.pending, rows.Pairwise fun a b => a.seq < b.seq
  counted : ∀ rows ∈ p.pending, ∀ row ∈ rows, row.seq ≤ p.registry.seq

/-- A running session has its entry, and its frames are the present server's. -/
structure Attached (p : Plane) (cursor : Nat) (x : Session) (sub : Subscriber) : Prop where
  running : x.task ≠ .ended
  registered : x.conn < p.registry.nextId
  entry : p.registry.subscribers.get? x.conn = some sub
  ordered : Ordered cursor (stream x.wire x.task.held sub.queue)
  current : Current p (stream x.wire x.task.held sub.queue)

def SessionValid (p : Plane) (cursor : Nat) (x : Session) : Prop :=
  (x.task = .ended ∧ Ordered cursor x.wire) ∨ ∃ sub, Attached p cursor x sub

structure Valid (s : State) : Prop where
  plane : PlaneValid s.plane
  seen : ∀ id ∈ s.client.resume.seen, ∃ e ∈ s.client.handled, e.id = id
  received : OnlyDuplicatesDropped s
  session : ∀ x, s.session = some x → SessionValid s.plane s.client.resume.cursor x

variable {cfg : Config} {s t : State} {x : Session} {p : Plane} {sub : Subscriber}
  {cursor : Nat} {frames front held : List SubServerMsg} {q : OutboundQueue}

@[simp] theorem eventsOf_lagFrame (q : OutboundQueue) : eventsOf (lagFrame q) = [] := by
  unfold lagFrame
  split <;> rfl

theorem eventsOf_stream :
    eventsOf (stream front held q) = eventsOf front ++ eventsOf held ++ eventsOf (queued q) := by
  simp [stream]

/-- Losing frames keeps the order. -/
theorem Ordered.sublist (h : Ordered cursor frames) {frames' : List SubServerMsg}
    (sub : (eventsOf frames').Sublist (eventsOf frames)) : Ordered cursor frames' :=
  ⟨h.ascending.sublist sub, fun e he => h.above e (sub.subset he)⟩

theorem Current.sublist (h : Current p frames) {frames' : List SubServerMsg}
    (sub : (eventsOf frames').Sublist (eventsOf frames)) : Current p frames' :=
  fun e he => h e (sub.subset he)

theorem wire_sublist : (eventsOf front).Sublist (eventsOf (stream front held q)) := by
  rw [eventsOf_stream, List.append_assoc]
  exact List.sublist_append_left _ _

theorem Attached.wire (h : Attached p cursor x sub) : Ordered cursor x.wire :=
  h.ordered.sublist wire_sublist

theorem SessionValid.attached (h : SessionValid p cursor x) (running : x.task ≠ .ended) :
    ∃ sub, Attached p cursor x sub := by
  cases h with
  | inl ended => exact absurd ended.1 running
  | inr attached => exact attached

/-! ## The plane -/

/-- A batch is numbered above everything stamped before it. -/
theorem stamp_valid (hv : Valid s) {mint : Nat → Uuid} {tsMs : Nat} {events : List Event}
    (single : s.plane.pending = [])
    (hs : s.plane.step cfg.valueLen cfg.textLen (.stampInMemory mint tsMs events) = some p) :
    Valid { s with plane := p } := by
  have delivery := hv.plane.delivery
  simp only [Plane.step, delivery] at hs
  split at hs
  · cases hs
  · cases hs
    have rows := s.plane.registry.stampInMemory_rows mint tsMs events
    simp only [single, List.nil_append]
    constructor
    · constructor
      · exact delivery
      · exact Nat.le_refl _
      · intro batch hb
        rw [List.mem_singleton.mp hb, rows]
        exact DeliveryLog.stampRows_ascending _ _ _ _
      · intro batch hb row hr
        rw [List.mem_singleton.mp hb, rows] at hr
        exact (DeliveryLog.stampRows_bounds hr).2
    · exact hv.seen
    · exact hv.received
    · intro y hy
      cases hv.session y hy with
      | inl ended => exact .inl ended
      | inr attached =>
        obtain ⟨sub, attached⟩ := attached
        refine .inr ⟨sub, attached.running, attached.registered, attached.entry,
          attached.ordered, ?_⟩
        intro e he
        have below := (attached.current e he).1
        constructor
        · exact Nat.le_trans below (Nat.le_add_right _ _)
        · intro batch hb row hr
          rw [List.mem_singleton.mp hb, rows] at hr
          exact Nat.lt_of_le_of_lt below (DeliveryLog.stampRows_bounds hr).1

/-- Pushed frames come after everything in flight. -/
theorem queued_pushEvents (textLen : SubServerMsg → Nat) (es : List StampedEvent) :
    (eventsOf (stream front held (q.pushEvents textLen (es.map .event)))).Sublist
      (eventsOf (stream front held q) ++ es) := by
  have sublist := (@OutboundQueue.pushEvents_spec textLen q (es.map .event)).2.2
  have frames : (eventsOf (queued (q.pushEvents textLen (es.map .event)))).Sublist _ :=
    (sublist.map Frame.msg).filterMap _
  have same : eventsOf ((q.inner ++ (es.map SubServerMsg.event).map
      OutboundQueue.eventFrame).map Frame.msg) = eventsOf (queued q) ++ es := by
    simp [queued, OutboundQueue.eventFrame, eventsOf, List.filterMap_map, Function.comp_def]
  have tail : (eventsOf (queued (q.pushEvents textLen (es.map .event)))).Sublist
      (eventsOf (queued q) ++ es) := same ▸ frames
  rw [eventsOf_stream, eventsOf_stream, List.append_assoc _ (eventsOf (queued q))]
  exact (List.Sublist.refl _).append tail

theorem push_valid (hv : Valid s) {i : Nat} (ahead : CounterAhead s (.plane (.push i)))
    (hs : s.plane.step cfg.valueLen cfg.textLen (.push i) = some p) :
    Valid { s with plane := p } := by
  obtain ⟨rows, hp, rfl⟩ := Plane.push_step hs
  have pending : rows ∈ s.plane.pending := List.mem_of_getElem? hp
  have none : s.plane.pending.eraseIdx i = [] := by
    have single := hv.plane.single
    have bound := (List.getElem?_eq_some_iff.mp hp).1
    apply List.eq_nil_of_length_eq_zero
    rw [List.length_eraseIdx_of_lt bound]
    omega
  constructor
  · constructor
    · exact hv.plane.delivery
    · simp [none]
    · simp [none]
    · simp [none]
  · exact hv.seen
  · exact hv.received
  · intro x hx
    cases hv.session x hx with
    | inl ended => exact .inl ended
    | inr attached =>
      obtain ⟨sub, attached⟩ := attached
      let offered := SubscriberRegistry.offeredTo sub rows
      have live : x.live = some x.conn := by
        unfold Session.live
        split
        · rename_i ended
          exact absurd ended attached.running
        · rfl
      have above : ∀ row ∈ offered, s.client.resume.cursor < row.seq := by
        intro row hr
        apply ahead
        have hx : s.session = some x := hx
        simpa [offeredToClient, hx, live, attached.entry, hp] using hr
      have batch : ∀ row ∈ offered, row ∈ rows := fun row hr => (List.mem_filter.mp hr).1
      have sublist := @queued_pushEvents x.wire x.task.held sub.queue cfg.textLen offered
      refine .inr ⟨_, attached.running, attached.registered,
        SubscriberRegistry.deliver_entry attached.entry rows, ?_, ?_⟩
      · constructor
        · apply List.Pairwise.sublist sublist
          apply List.pairwise_append.mpr
          refine ⟨attached.ordered.ascending, (hv.plane.ascending rows pending).filter _, ?_⟩
          intro e he row hr
          exact (attached.current e he).2 rows pending row (batch row hr)
        · intro e he
          cases List.mem_append.mp (sublist.subset he) with
          | inl old => exact attached.ordered.above e old
          | inr new => exact above e new
      · intro e he
        constructor
        · cases List.mem_append.mp (sublist.subset he) with
          | inl old => exact (attached.current e old).1
          | inr new => exact hv.plane.counted rows pending e (batch e new)
        · simp [none]

theorem connection_valid (hv : Valid s) {op : RegistryOp}
    (hs : step cfg s (.plane (.connection op)) = some t) : Valid t := by
  simp only [step] at hs
  split at hs
  · cases hs
  · rename_i foreign
    cases hs
    obtain ⟨delivery, seq⟩ := s.plane.registry.apply_same op
    constructor
    · exact ⟨delivery.trans hv.plane.delivery, hv.plane.single, hv.plane.ascending,
        fun rows hr row h => seq.symm ▸ hv.plane.counted rows hr row h⟩
    · exact hv.seen
    · exact hv.received
    · intro x hx
      have hx : s.session = some x := hx
      cases hv.session x hx with
      | inl ended => exact .inl ended
      | inr attached =>
        obtain ⟨sub, attached⟩ := attached
        have other : op.conn ≠ some x.conn := by
          intro same
          have running := attached.running
          apply foreign
          rw [same, hx]
          simp only [Option.bind_some, Session.live]
          simp
        obtain ⟨entry, grows⟩ :=
          s.plane.registry.apply_other op other attached.registered
        exact .inr ⟨sub, attached.running, Nat.lt_of_lt_of_le attached.registered grows,
          entry.trans attached.entry, attached.ordered, fun e he => seq.symm ▸ attached.current e he⟩

/-- A restart forgets everything but what is on the wire. -/
theorem restart_valid (hv : Valid s) (hs : step cfg s .restart = some t) : Valid t := by
  simp only [step, hv.plane.delivery] at hs
  cases hs
  constructor
  · exact ⟨rfl, Nat.zero_le _, nofun, nofun⟩
  · exact hv.seen
  · exact hv.received
  · intro y hy
    obtain ⟨x, hx, rfl⟩ := Option.map_eq_some_iff.mp hy
    cases hv.session x hx with
    | inl ended => exact .inl ⟨rfl, ended.2⟩
    | inr attached =>
      obtain ⟨sub, attached⟩ := attached
      exact .inl ⟨rfl, attached.wire⟩

/-! ## The session -/

/-- A step of the session's task, with its change to the registry. -/
theorem Valid.setSession (hv : Valid s) {r : SubscriberRegistry}
    (delivery : r.delivery = s.plane.registry.delivery) (seq : r.seq = s.plane.registry.seq)
    (session : SessionValid { s.plane with registry := r } s.client.resume.cursor x) :
    Valid ((s.setRegistry r).setSession x) := by
  constructor
  · exact ⟨delivery.trans hv.plane.delivery, hv.plane.single, hv.plane.ascending,
      fun rows hr row h => seq.symm ▸ hv.plane.counted rows hr row h⟩
  · exact hv.seen
  · exact hv.received
  · intro y hy
    cases hy
    exact session

theorem connect_valid (hv : Valid s) (hs : step cfg s .connect = some t) : Valid t := by
  simp only [step] at hs
  split at hs
  · cases hs
  · split at hs
    · cases hs
    · cases hs
      exact hv.setSession rfl rfl (.inr ⟨_, nofun, Nat.lt_succ_self _,
        OrdMap.get?_insert_self _ _ _, ⟨.nil, nofun⟩, nofun⟩)

/-- The registry differs from `r` in the entry `id` only, and there in no event. -/
structure Tends (r : SubscriberRegistry) (id : Nat) (sub : Subscriber) (r' : SubscriberRegistry) :
    Prop where
  delivery : r'.delivery = r.delivery
  seq : r'.seq = r.seq
  nextId : r'.nextId = r.nextId
  entry : ∃ sub', r'.subscribers.get? id = some sub' ∧
    eventsOf (queued sub'.queue) = eventsOf (queued sub.queue)

theorem Tends.modify {r r' : SubscriberRegistry} {id : Nat} (h : Tends r id sub r')
    {f : Subscriber → Subscriber}
    (quiet : ∀ sub, eventsOf (queued (f sub).queue) = eventsOf (queued sub.queue)) :
    Tends r id sub (r'.modify id f) := by
  obtain ⟨sub', entry, same⟩ := h.entry
  obtain ⟨delivery, nextId⟩ := r'.modify_same id f
  exact ⟨delivery.trans h.delivery, (r'.modify_seq id f).trans h.seq, nextId.trans h.nextId,
    f sub', SubscriberRegistry.get?_modify_self entry f, (quiet sub').trans same⟩

theorem Tends.pushControl {r r' : SubscriberRegistry} {id : Nat} (h : Tends r id sub r')
    {msg : SubServerMsg} (control : eventsOf [msg] = []) :
    Tends r id sub (SubscriberWs.pushControl r' id msg) := by
  apply h.modify
  intro sub
  simp [queued, OutboundQueue.pushControl, control]

/-- Without a log a subscribe queues control frames and starts no replay. -/
theorem handle_offline (r : SubscriberRegistry) (hd : r.delivery = none) {id : Nat}
    (entry : r.subscribers.get? id = some sub) (patterns : List String) (afterSeq : Nat) :
    ∃ r', handleSubscriberText r id (.subscribe patterns (some ⟨afterSeq⟩)) = (r', none) ∧
      Tends r id sub r' := by
  have start : Tends r id sub r := ⟨rfl, rfl, rfl, sub, entry, rfl⟩
  simp only [handleSubscriberText, SubscriberRegistry.subscribe]
  cases SubscriberRegistry.parsePatterns patterns with
  | error msg => exact ⟨_, rfl, start.pushControl rfl⟩
  | ok parsed =>
    have registered : Tends r id sub (r.modify id fun sub => { sub with
        patterns := SubscriberRegistry.addPatterns sub.patterns parsed }) :=
      start.modify fun _ => rfl
    simp only [registered.delivery, hd]
    exact ⟨_, rfl, (registered.pushControl rfl).pushControl rfl⟩

theorem subscribe_valid (hv : Valid s) (hx : s.session = some x)
    (hs : sessionStep cfg s x .subscribe = some t) : Valid t := by
  simp only [sessionStep] at hs
  split at hs
  · rename_i welcomed
    obtain ⟨sub, attached⟩ := (hv.session x hx).attached (by simp [welcomed])
    obtain ⟨r, handled, tends⟩ := handle_offline s.plane.registry hv.plane.delivery attached.entry
      cfg.patterns s.client.resume.cursor
    obtain ⟨sub', entry, same⟩ := tends.entry
    simp only [handled] at hs
    cases hs
    have events : eventsOf (stream x.wire [] sub'.queue) =
        eventsOf (stream x.wire x.task.held sub.queue) := by
      simp [eventsOf_stream, same, welcomed, Task.held]
    apply hv.setSession tends.delivery tends.seq
    refine .inr ⟨sub', nofun, tends.nextId ▸ attached.registered, entry, ?_, ?_⟩
    · exact attached.ordered.sublist (events ▸ .refl _)
    · intro e he
      exact tends.seq.symm ▸ attached.current e (events ▸ he)
  · cases hs

theorem popFrame_valid (hv : Valid s) (hx : s.session = some x)
    (hs : sessionStep cfg s x .popFrame = some t) : Valid t := by
  simp only [sessionStep] at hs
  split at hs
  · rename_i through task
    obtain ⟨sub, attached⟩ := (hv.session x hx).attached (by simp [task])
    obtain ⟨⟨frame, r⟩, hr, rfl⟩ := Option.map_eq_some_iff.mp hs
    obtain ⟨queue, inner, lag, rfl⟩ := SubscriberRegistry.popFrame_spec attached.entry hr
    have same := @stream_pop x.wire frame sub.queue queue inner lag
    have ordered := attached.ordered
    have current := attached.current
    simp only [task, Task.held, ← same] at ordered current
    exact hv.setSession rfl rfl (.inr ⟨_, nofun, attached.registered,
      OrdMap.get?_insert_self _ _ _, ordered, current⟩)
  · cases hs

theorem sendFrame_valid (hv : Valid s) (hx : s.session = some x)
    (hs : sessionStep cfg s x .sendFrame = some t) : Valid t := by
  simp only [sessionStep] at hs
  split at hs
  · rename_i through frame found task entry
    obtain ⟨sub, attached⟩ := (hv.session x hx).attached (by simp [task])
    have same : sub = found := Option.some.inj (attached.entry.symm.trans entry)
    subst same
    have ordered := attached.ordered
    have current := attached.current
    simp only [task, Task.held, ← stream_send] at ordered current
    let taken := fun other : Subscriber => { other with queue := sub.queue.takePendingLag.2 }
    obtain ⟨delivery, nextId⟩ := s.plane.registry.modify_same x.conn taken
    have seq := s.plane.registry.modify_seq x.conn taken
    split at hs
    · cases hs
      exact hv.setSession delivery seq (.inl ⟨rfl, ordered.sublist wire_sublist⟩)
    · cases hs
      apply hv.setSession delivery seq
      refine .inr ⟨_, nofun, nextId.symm ▸ attached.registered,
        SubscriberRegistry.get?_modify_self attached.entry _, ordered, ?_⟩
      exact fun e he => seq.symm ▸ current e he
  · cases hs

/-- The task ends: its entry goes, the wire stays, with a closing frame at most. -/
theorem endTask_valid (hv : Valid s) (hx : s.session = some x) (running : x.task ≠ .ended)
    {wire : List SubServerMsg} (same : eventsOf wire = eventsOf x.wire) :
    Valid (s.endTask x wire) := by
  obtain ⟨sub, attached⟩ := (hv.session x hx).attached running
  exact hv.setSession rfl rfl (.inl ⟨rfl, attached.wire.sublist (same ▸ .refl _)⟩)

/-! ## The client -/

/-- Every event in flight is above the cursor, so only its id can make the client
drop it. -/
theorem handle_valid {client : Client} {e : StampedEvent} (above : client.resume.cursor < e.seq)
    (seen : ∀ id ∈ client.resume.seen, ∃ e ∈ client.handled, e.id = id) :
    (∀ id ∈ (client.handle e).resume.seen, ∃ e' ∈ (client.handle e).handled, e'.id = id) ∧
      (∀ h ∈ client.handled, h ∈ (client.handle e).handled) ∧
      (∃ e' ∈ (client.handle e).handled, e'.id = e.id) ∧
      (client.handle e).resume.cursor ≤ e.seq := by
  by_cases dup : e.id ∈ client.resume.seen
  · have same : client.handle e = client := by
      simp [Client.handle, ResumeState.shouldProcess, dup]
    rw [same]
    exact ⟨seen, fun _ h => h, seen e.id dup, Nat.le_of_lt above⟩
  · have new : client.handle e =
        ⟨client.resume.record e.id e.seq, client.handled ++ [e]⟩ := by
      simp [Client.handle, ResumeState.shouldProcess, above, dup]
    have mem : e ∈ client.handled ++ [e] := by simp
    rw [new]
    refine ⟨?_, fun h hh => List.mem_append_left _ hh, ⟨e, mem, rfl⟩, ?_⟩
    · intro id hid
      cases ResumeState.seen_record hid with
      | inl eq => exact ⟨e, mem, eq.symm⟩
      | inr old =>
        obtain ⟨h, hh, eq⟩ := seen id old
        exact ⟨h, List.mem_append_left _ hh, eq⟩
    · simp only [ResumeState.record_cursor]
      omega

theorem eventsOf_cons_sublist (msg : SubServerMsg) (frames : List SubServerMsg) :
    (eventsOf frames).Sublist (eventsOf (msg :: frames)) :=
  (List.sublist_cons_self msg frames).filterMap _

/-- The frame read leaves a session in order from the new cursor on. -/
theorem SessionValid.receive {msg : SubServerMsg} {rest : List SubServerMsg} {cursor' : Nat}
    (h : SessionValid p cursor x) (hw : x.wire = msg :: rest)
    (next : ∀ frames, Ordered cursor (msg :: frames) → Ordered cursor' frames) :
    SessionValid p cursor' { x with wire := rest } := by
  cases h with
  | inl ended => exact .inl ⟨ended.1, next rest (hw ▸ ended.2)⟩
  | inr attached =>
    obtain ⟨sub, attached⟩ := attached
    have ordered := attached.ordered
    have current := attached.current
    rw [hw] at ordered current
    exact .inr ⟨sub, attached.running, attached.registered, attached.entry, next _ ordered,
      current.sublist (eventsOf_cons_sublist _ _)⟩

theorem SessionValid.wire (h : SessionValid p cursor x) : Ordered cursor x.wire := by
  cases h with
  | inl ended => exact ended.2
  | inr attached =>
    obtain ⟨sub, attached⟩ := attached
    exact attached.wire

theorem receive_event_valid (hv : Valid s) (hx : s.session = some x) {e : StampedEvent}
    {rest : List SubServerMsg} (hw : x.wire = .event e :: rest) :
    Valid (receive s x (.event e) rest) := by
  have session := hv.session x hx
  have above : s.client.resume.cursor < e.seq := by
    apply session.wire.above
    rw [hw]
    exact mem_eventsOf.mpr List.mem_cons_self
  obtain ⟨seen, kept, handled, cursor⟩ := handle_valid above hv.seen
  constructor
  · exact hv.plane
  · exact seen
  · intro r hr
    cases List.mem_append.mp hr with
    | inl old =>
      obtain ⟨h, hh, eq⟩ := hv.received r old
      exact ⟨h, kept h hh, eq⟩
    | inr new =>
      obtain rfl := List.mem_singleton.mp new
      exact handled
  · intro y hy
    cases hy
    apply session.receive hw
    intro frames ordered
    obtain ⟨first, ascending⟩ := List.pairwise_cons.mp ordered.ascending
    exact ⟨ascending, fun r hr => Nat.lt_of_le_of_lt cursor (first r hr)⟩

theorem receive_valid (hv : Valid s) (hx : s.session = some x) {msg : SubServerMsg}
    {rest : List SubServerMsg} (hw : x.wire = msg :: rest) : Valid (receive s x msg rest) := by
  have more : eventsOf [msg] = [] → Valid ({ s with
      received := s.received ++ eventsOf [msg] }.setSession { x with wire := rest }) := by
    intro control
    refine ⟨hv.plane, hv.seen, ?_, fun y hy => ?_⟩
    · rw [control, List.append_nil]
      exact hv.received
    · cases hy
      apply (hv.session x hx).receive hw
      exact fun frames ordered => ordered.sublist (eventsOf_cons_sublist _ _)
  have last : ∀ stopped, eventsOf [msg] = [] → Valid { s with
      session := none, stopped := stopped, received := s.received ++ eventsOf [msg] } := by
    intro stopped control
    refine ⟨hv.plane, hv.seen, ?_, nofun⟩
    rw [control, List.append_nil]
    exact hv.received
  cases msg with
  | event e => exact receive_event_valid hv hx hw
  | lagged dropped => exact last _ rfl
  | closing reason =>
    cases reason with
    | shutdown => exact last _ rfl
    | revoked => exact last _ rfl
  | welcome name => exact more rfl
  | ok op => exact more rfl
  | error op msg => exact more rfl
  | replayed throughSeq => exact more rfl
  | replayGap fromSeq earliestSeq => exact more rfl
  | pong => exact more rfl

end Whdr.Restarts
