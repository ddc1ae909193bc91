import Whdr.Server.PlaneSteps
import Whdr.Server.QueueCalls

/-! The change from replay to live delivery on one connection. The patterns are
registered before the head is loaded, and a fan-out stores the head before it pushes:
what the head loaded does not cover is pushed after the patterns are visible. -/
namespace Whdr.Handoff

open DeliveryLog SubscriberWs
open OutboundQueue (Call foldl_events offer?_events)
open Runs (Reaches exec guarded reaches_of_exec)

/-- Where the connection's task is with its one subscribe. -/
inductive Handler
  | waiting
  | refused
  | replaying (afterSeq : Nat) (parsed : List Pattern) (stage : Replaying)
  | served (frames : Option (List SubServerMsg))
  deriving DecidableEq

/-- `offered` are the events `push_event` was called with on the connection's queue. -/
structure State where
  plane : Plane
  handler : Handler
  offered : List StampedEvent
  deriving DecidableEq

inductive Action
  | plane (a : PlaneAction)
  | subscribe
  | loadFloor
  | loadHead
  | readRows
  | popFrame

section
variable (valueLen : StoredEvent → Nat) (textLen : SubServerMsg → Nat) (checks : Bool)
  (conn : Nat) (patterns : List String) (afterSeq : Nat)

/-- What a plane step pushes to the connection. -/
def offeredBy (p : Plane) : PlaneAction → List StampedEvent
  | .push i =>
    match p.registry.subscribers.get? conn, p.pending[i]? with
    | some sub, some rows => SubscriberRegistry.offeredTo sub rows
    | _, _ => []
  | _ => []

/-- Only the task of `conn` works on its entry, and it pops frames at its select. -/
def step (s : State) : Action → Option State
  | .plane (.connection op) =>
    if op.conn = some conn then none
    else (s.plane.step valueLen textLen (.connection op)).map fun p => { s with plane := p }
  | .plane a => (s.plane.step valueLen textLen a).map fun p =>
      { s with plane := p, offered := s.offered ++ offeredBy conn s.plane a }
  | .subscribe =>
    match s.handler with
    | .waiting =>
      match handleSubscriberText s.plane.registry conn (.subscribe patterns (some ⟨afterSeq⟩)) with
      | (r, some (after, parsed)) => some { s with
          plane := { s.plane with registry := r }
          handler := .replaying after parsed .registered }
      | (r, none) => some { s with plane := { s.plane with registry := r }, handler := .refused }
    | _ => none
  | .loadFloor =>
    match s.handler, s.plane.registry.delivery with
    | .replaying after parsed .registered, some shared =>
      some { s with handler := .replaying after parsed (.floorLoaded shared.floor) }
    | _, _ => none
  | .loadHead =>
    match s.handler, s.plane.registry.delivery with
    | .replaying after parsed (.floorLoaded floor), some shared =>
      some { s with handler := .replaying after parsed (.headLoaded floor shared.head) }
    | _, _ => none
  | .readRows =>
    match s.handler, s.plane.registry.delivery with
    | .replaying after parsed (.headLoaded floor head), some shared =>
      some { s with handler := .served (replayFrames checks after parsed floor head shared.db) }
    | _, _ => none
  | .popFrame =>
    match s.handler with
    | .replaying _ _ _ => none
    | _ => (s.plane.registry.popFrame conn).map fun (_, r) =>
        { s with plane := { s.plane with registry := r } }

/-- A server with an open log and `conn` registered, with any patterns and this queue. -/
def Starts (queue : OutboundQueue) (s : State) : Prop :=
  (∃ shared, s.plane.registry.delivery = some shared ∧ Opened valueLen shared) ∧
    s.plane.writer = .idle ∧ s.plane.pending = [] ∧
    (∃ sub, s.plane.registry.subscribers.get? conn = some sub ∧ sub.queue = queue) ∧
    conn < s.plane.registry.nextId ∧ s.handler = .waiting ∧ s.offered = []

/-- The connection's queue is what its calls have made of the first one, and `push_event` was
called with the offered events, in order. -/
def Offers (queue : OutboundQueue) (s : State) : Prop :=
  ∃ sub calls, s.plane.registry.subscribers.get? conn = some sub ∧
    sub.queue = (queue.calls textLen calls).1 ∧
    calls.filterMap Call.offer? = s.offered.map .event

def NoPrune (_ : State) : Action → Prop
  | .plane a => Plane.NoPrune a
  | _ => True

instance (s : State) (a : Action) : Decidable (NoPrune s a) :=
  match a with
  | .plane a => inferInstanceAs (Decidable (Plane.NoPrune a))
  | .subscribe | .loadFloor | .loadHead | .readRows | .popFrame => isTrue trivial

end

/-! ## The invariant -/

section
variable (P : List Pattern)

/-- Every matching row is done with, or will be pushed, or was offered. -/
def Accounted (b : Plane.Book) (offered : List StampedEvent) (done : StampedEvent → Prop) : Prop :=
  ∀ row, b.committed row → anyMatches P row.channel = true →
    done row ∨ b.unpushed row ∨ row ∈ offered

end

variable {valueLen : StoredEvent → Nat} {textLen : SubServerMsg → Nat} {checks : Bool}
  {conn : Nat} {patterns : List String} {afterSeq : Nat} {P : List Pattern} {b b' : Plane.Book}
  {queue : OutboundQueue} {s t : State} {p : Plane} {done : StampedEvent → Prop}
  {offered rows : List StampedEvent}

theorem Accounted.grow (h : Accounted P b offered done) (grows : b.Grows rows b') :
    Accounted P b' offered done := by
  intro row hc hm
  obtain old | ⟨_, unpushed, _⟩ := grows.fresh row hc
  · obtain hd | unpushed | mem := h row old hm
    · exact .inl hd
    · exact .inr (.inl (grows.unpushed row unpushed))
    · exact .inr (.inr mem)
  · exact .inr (.inl unpushed)

/-- The rows a push takes out of the pending batches are offered to a connection that
has the patterns. -/
theorem Accounted.push (h : Accounted P b offered done) (pushes : b.Pushes rows b')
    {sub : Subscriber} (has : ∀ q ∈ P, q ∈ sub.patterns) :
    Accounted P b' (offered ++ SubscriberRegistry.offeredTo sub rows) done := by
  intro row hc hm
  obtain hd | unpushed | mem := h row ((pushes.committed row).mp hc) hm
  · exact .inl hd
  · obtain pushed | still := pushes.unpushed row unpushed
    · refine .inr (.inr (List.mem_append_right _ (List.mem_filter.mpr ⟨pushed, ?_⟩)))
      exact anyMatches_mono has hm
    · exact .inr (.inl still)
  · exact .inr (.inr (List.mem_append_left _ mem))

section
variable (P : List Pattern) (afterSeq : Nat)

/-- The replay has the row, or it is no event after the cursor. -/
def Delivered (frames : Option (List SubServerMsg)) (row : StampedEvent) : Prop :=
  row.seq ≤ afterSeq ∨ u64Size ≤ row.seq ∨ ∃ fs, frames = some fs ∧ .event row ∈ fs

def Staged (b : Plane.Book) (offered : List StampedEvent) : Handler → Prop
  | .waiting | .refused => True
  | .replaying after parsed stage => after = afterSeq ∧ parsed = P ∧
    match stage with
    | .registered => True
    | .floorLoaded floor => b.FloorSafe floor
    | .headLoaded floor head => b.FloorSafe floor ∧ Accounted P b offered (·.seq ≤ head)
  | .served frames => Accounted P b offered (Delivered afterSeq frames)

def Handler.subscribed : Handler → Bool
  | .waiting | .refused => false
  | .replaying _ _ _ | .served _ => true

structure Valid (conn : Nat) (s : State) : Prop where
  plane : ∃ shared low last, s.plane.Valid shared low last
  registered : conn < s.plane.registry.nextId
  sub : ∃ sub, s.plane.registry.subscribers.get? conn = some sub ∧
    (s.handler.subscribed = true → ∀ q ∈ P, q ∈ sub.patterns)
  staged : Staged P afterSeq s.plane.book s.offered s.handler

end

/-- Whatever keeps floors and accounts keeps the stage. -/
theorem Staged.transfer {handler : Handler} {offered' : List StampedEvent}
    (h : Staged P afterSeq b offered handler)
    (floors : ∀ floor, b.FloorSafe floor → b'.FloorSafe floor)
    (accounts : handler.subscribed = true → ∀ done, Accounted P b offered done →
      Accounted P b' offered' done) : Staged P afterSeq b' offered' handler := by
  cases handler with
  | waiting => trivial
  | refused => trivial
  | served frames => exact accounts rfl _ h
  | replaying after parsed stage =>
    obtain ⟨ha, hp, hstage⟩ := h
    refine ⟨ha, hp, ?_⟩
    cases stage with
    | registered => trivial
    | floorLoaded floor => exact floors floor hstage
    | headLoaded floor head => exact ⟨floors floor hstage.1, accounts rfl _ hstage.2⟩

theorem starts_valid (h : Starts valueLen conn queue s) : Valid P afterSeq conn s := by
  obtain ⟨⟨shared, hd, opened⟩, idle, none, ⟨sub, hsub, _⟩, registered, waiting, _⟩ := h
  obtain ⟨low, last, hv⟩ := Plane.opened_valid opened
  refine ⟨⟨shared, low, last, ?_⟩, registered, ⟨sub, hsub, ?_⟩, ?_⟩
  · obtain ⟨⟨registry, writer, pending⟩, handler, offered⟩ := s
    simp only at idle none hd
    subst idle none
    exact hv.of_delivery (hd.trans hv.delivery.symm)
  · simp [waiting, Handler.subscribed]
  · rw [waiting]
    trivial

theorem push_valid (hv : Valid P afterSeq conn s) {i : Nat}
    (hs : s.plane.step valueLen textLen (.push i) = some p) :
    Valid P afterSeq conn
      { s with plane := p, offered := s.offered ++ offeredBy conn s.plane (.push i) } := by
  obtain ⟨⟨shared, low, last, plane⟩, registered, ⟨sub, hsub, has⟩, staged⟩ := hv
  obtain ⟨rows, hp, rfl⟩ := Plane.push_step hs
  refine ⟨⟨shared, low, last, Plane.push_valid plane i rows⟩, registered,
    ⟨_, SubscriberRegistry.deliver_entry hsub rows, has⟩, ?_⟩
  · have pushes := @Plane.push_book textLen s.plane i rows hp
    refine staged.transfer (fun floor h => h.push pushes) fun subscribed done h => ?_
    simp only [offeredBy, hsub, hp]
    exact h.push pushes (has subscribed)

theorem plane_valid (hv : Valid P afterSeq conn s) {a : PlaneAction} (keep : Plane.NoPrune a)
    (hs : step valueLen textLen checks conn patterns afterSeq s (.plane a) = some t) :
    Valid P afterSeq conn t := by
  cases a with
  | push i =>
    obtain ⟨p, hp, rfl⟩ := Option.map_eq_some_iff.mp hs
    exact push_valid hv hp
  | log a =>
    obtain ⟨p, hp, rfl⟩ := Option.map_eq_some_iff.mp hs
    obtain ⟨⟨shared, low, last, plane⟩, registered, ⟨sub, hsub, has⟩, staged⟩ := hv
    obtain ⟨⟨shared', last', plane'⟩, grows⟩ := Plane.log_step plane keep hp
    refine ⟨⟨shared', low, last', plane'⟩, grows.nextId ▸ registered,
      ⟨sub, grows.subscribers ▸ hsub, has⟩, ?_⟩
    simp only [offeredBy, List.append_nil]
    exact staged.transfer (fun _ h => h.grow grows.book) fun _ _ h => h.grow grows.book
  | stampInMemory mint tsMs events =>
    obtain ⟨shared, low, last, plane⟩ := hv.plane
    simp [step, Plane.step, plane.delivery] at hs
  | connection op =>
    simp only [step] at hs
    split at hs
    · cases hs
    · rename_i other
      obtain ⟨p, hp, rfl⟩ := Option.map_eq_some_iff.mp hs
      cases hp
      obtain ⟨⟨shared, low, last, plane⟩, registered, ⟨sub, hsub, has⟩, staged⟩ := hv
      obtain ⟨same, grows⟩ := s.plane.registry.apply_other op other registered
      have delivery := (s.plane.registry.apply_same op).1
      refine ⟨⟨shared, low, last, plane.of_delivery delivery⟩, Nat.lt_of_lt_of_le registered grows,
        ⟨sub, same.trans hsub, has⟩, ?_⟩
      exact (s.plane.book_of_delivery delivery).symm ▸ staged

/-- The subscribe registers the patterns before anything is loaded. -/
theorem subscribe_valid (hv : Valid (requested patterns) afterSeq conn s)
    (hs : step valueLen textLen checks conn patterns afterSeq s .subscribe = some t) :
    Valid (requested patterns) afterSeq conn t := by
  obtain ⟨⟨shared, low, last, plane⟩, registered, ⟨sub, hsub, has⟩, staged⟩ := hv
  simp only [step] at hs
  split at hs
  · rcases handle_subscribe s.plane.registry plane.delivery conn afterSeq patterns with
      ok | ⟨msg, refused⟩
    · simp only [ok] at hs
      cases hs
      have same := SubscriberRegistry.modify_same s.plane.registry conn fun sub =>
        { sub with patterns := SubscriberRegistry.addPatterns sub.patterns (requested patterns) }
      refine ⟨⟨shared, low, last, plane.of_delivery same.1⟩, same.2 ▸ registered,
        ⟨_, SubscriberRegistry.get?_modify_self hsub _, fun _ q hq => ?_⟩, rfl, rfl, trivial⟩
      exact SubscriberRegistry.mem_addPatterns.mpr (.inr hq)
    · simp only [refused] at hs
      cases hs
      have same := SubscriberRegistry.modify_same s.plane.registry conn fun sub =>
        { sub with queue := sub.queue.pushControl (.error "subscribe" msg) }
      exact ⟨⟨shared, low, last, plane.of_delivery same.1⟩, same.2 ▸ registered,
        ⟨_, SubscriberRegistry.get?_modify_self hsub _, nofun⟩, trivial⟩
  · cases hs

theorem loadFloor_valid (hv : Valid P afterSeq conn s)
    (hs : step valueLen textLen checks conn patterns afterSeq s .loadFloor = some t) :
    Valid P afterSeq conn t := by
  obtain ⟨⟨shared, low, last, plane⟩, registered, ⟨sub, hsub, has⟩, staged⟩ := hv
  simp only [step, plane.delivery] at hs
  split at hs
  · rename_i after parsed shared' hh hd
    cases hd
    cases hs
    simp only [hh] at has staged
    exact ⟨⟨shared, low, last, plane⟩, registered, ⟨sub, hsub, has⟩, staged.1, staged.2.1,
      plane.floorSafe⟩
  · cases hs

/-- What the head does not cover at its load is in the writer's hands. -/
theorem loadHead_valid (hv : Valid P afterSeq conn s)
    (hs : step valueLen textLen checks conn patterns afterSeq s .loadHead = some t) :
    Valid P afterSeq conn t := by
  obtain ⟨⟨shared, low, last, plane⟩, registered, ⟨sub, hsub, has⟩, staged⟩ := hv
  simp only [step, plane.delivery] at hs
  split at hs
  · rename_i after parsed floor shared' hh hd
    cases hd
    cases hs
    simp only [hh] at has staged
    obtain ⟨ha, hp, floorSafe⟩ := staged
    refine ⟨⟨shared, low, last, plane⟩, registered, ⟨sub, hsub, has⟩, ha, hp, floorSafe, ?_⟩
    intro row hc _
    by_cases covered : row.seq ≤ shared.head
    · exact .inl covered
    · have above : s.plane.head < row.seq := by rw [plane.head_eq]; omega
      exact .inr (.inl (.inl (plane.above_head hc above)))
  · cases hs

theorem readRows_valid (hv : Valid P afterSeq conn s)
    (hs : step valueLen textLen checks conn patterns afterSeq s .readRows = some t) :
    Valid P afterSeq conn t := by
  obtain ⟨⟨shared, low, last, plane⟩, registered, ⟨sub, hsub, has⟩, staged⟩ := hv
  simp only [step, plane.delivery] at hs
  split at hs
  · rename_i after parsed floor head shared' hh hd
    cases hd
    cases hs
    simp only [hh] at has staged
    obtain ⟨rfl, rfl, floorSafe, accounted⟩ := staged
    refine ⟨⟨shared, low, last, plane⟩, registered, ⟨sub, hsub, has⟩, ?_⟩
    intro row hc hm
    obtain covered | later := accounted row hc hm
    · refine .inl ?_
      by_cases lo : row.seq ≤ after
      · exact .inl lo
      · cases hf : replayFrames checks after parsed floor head shared.db with
        | none =>
          have := overflow_of_panic hf
          exact .inr (.inl (by omega))
        | some fs =>
          have lowest : ∀ k e, shared.db.get? k = some e → floor ≤ k := fun k e he =>
            floorSafe.2 (e.stamp k) ((plane.committed_iff _).mpr he)
          have mem := replay_covers hf lowest ((plane.committed_iff row).mp hc) (by omega) covered hm
          exact .inr (.inr ⟨fs, rfl, mem_eventsOf.mp mem⟩)
    · exact .inr later
  · cases hs

theorem popFrame_valid (hv : Valid P afterSeq conn s)
    (hs : step valueLen textLen checks conn patterns afterSeq s .popFrame = some t) :
    Valid P afterSeq conn t := by
  obtain ⟨⟨shared, low, last, plane⟩, registered, ⟨sub, hsub, has⟩, staged⟩ := hv
  simp only [step] at hs
  split at hs
  · cases hs
  · simp only [SubscriberRegistry.popFrame, hsub] at hs
    obtain ⟨⟨_, r⟩, hr, rfl⟩ := Option.map_eq_some_iff.mp hs
    obtain ⟨⟨frame, queue⟩, _, eq⟩ := Option.map_eq_some_iff.mp hr
    cases eq
    exact ⟨⟨shared, low, last, plane.of_delivery rfl⟩, registered,
      ⟨_, OrdMap.get?_insert_self _ _ _, has⟩, staged⟩

theorem step_valid (hv : Valid (requested patterns) afterSeq conn s) {a : Action}
    (keep : NoPrune s a)
    (hs : step valueLen textLen checks conn patterns afterSeq s a = some t) :
    Valid (requested patterns) afterSeq conn t := by
  cases a with
  | plane a => exact plane_valid hv keep hs
  | subscribe => exact subscribe_valid hv hs
  | loadFloor => exact loadFloor_valid hv hs
  | loadHead => exact loadHead_valid hv hs
  | readRows => exact readRows_valid hv hs
  | popFrame => exact popFrame_valid hv hs

/-! ## The calls on the queue -/

theorem starts_offers (h : Starts valueLen conn queue s) : Offers textLen conn queue s := by
  obtain ⟨_, _, _, ⟨sub, hsub, isQueue⟩, _, _, none⟩ := h
  exact ⟨sub, [], hsub, isQueue, by rw [none]; rfl⟩

/-- More calls on the queue, and what they offer. -/
theorem Offers.next {sub' : Subscriber} (h : Offers textLen conn queue s) (more : List Call)
    (entry : t.plane.registry.subscribers.get? conn = some sub')
    (calls : ∀ sub popped, s.plane.registry.subscribers.get? conn = some sub →
      sub'.queue = (more.foldl (OutboundQueue.call textLen) (sub.queue, popped)).1)
    (offered : t.offered.map .event = s.offered.map .event ++ more.filterMap Call.offer?) :
    Offers textLen conn queue t := by
  obtain ⟨sub, before, old, isQueue, events⟩ := h
  refine ⟨sub', before ++ more, entry, ?_, ?_⟩
  · rw [calls sub (queue.calls textLen before).2 old, isQueue, OutboundQueue.calls,
      OutboundQueue.calls, List.foldl_append]
  · rw [List.filterMap_append, events, offered]

/-- The entry is as it was. -/
theorem Offers.same (h : Offers textLen conn queue s)
    (entry : t.plane.registry.subscribers.get? conn = s.plane.registry.subscribers.get? conn)
    (offered : t.offered = s.offered) : Offers textLen conn queue t := by
  obtain ⟨sub, calls, old, rest⟩ := h
  exact ⟨sub, calls, entry.trans old, offered ▸ rest⟩

theorem plane_offers (hv : Valid P afterSeq conn s) (h : Offers textLen conn queue s)
    {a : PlaneAction}
    (hs : step valueLen textLen checks conn patterns afterSeq s (.plane a) = some t) :
    Offers textLen conn queue t := by
  cases a with
  | push i =>
    obtain ⟨p, hp, rfl⟩ := Option.map_eq_some_iff.mp hs
    obtain ⟨rows, pending, rfl⟩ := Plane.push_step hp
    obtain ⟨sub, hsub, _⟩ := hv.sub
    refine h.next (((SubscriberRegistry.offeredTo sub rows).map SubServerMsg.event).map
      Call.pushEvent) (SubscriberRegistry.deliver_entry hsub rows) ?_ ?_
    · intro other popped entry
      rw [hsub] at entry
      cases entry
      rw [foldl_events]
    · simp only [offeredBy, hsub, pending, offer?_events, List.map_append]
  | log a =>
    obtain ⟨p, hp, rfl⟩ := Option.map_eq_some_iff.mp hs
    simp only [Plane.step] at hp
    split at hp
    · cases hp
    · obtain ⟨l, _, rfl⟩ := Option.map_eq_some_iff.mp hp
      exact h.same rfl (List.append_nil _)
  | stampInMemory mint tsMs events =>
    obtain ⟨shared, low, last, plane⟩ := hv.plane
    simp [step, Plane.step, plane.delivery] at hs
  | connection op =>
    simp only [step] at hs
    split at hs
    · cases hs
    · rename_i other
      obtain ⟨p, hp, rfl⟩ := Option.map_eq_some_iff.mp hs
      cases hp
      exact h.same (s.plane.registry.apply_other op other hv.registered).1 rfl

theorem subscribe_offers (hv : Valid P afterSeq conn s) (h : Offers textLen conn queue s)
    (hs : step valueLen textLen checks conn patterns afterSeq s .subscribe = some t) :
    Offers textLen conn queue t := by
  obtain ⟨⟨shared, low, last, plane⟩, registered, ⟨sub, hsub, has⟩, staged⟩ := hv
  simp only [step] at hs
  split at hs
  · rcases handle_subscribe s.plane.registry plane.delivery conn afterSeq patterns with
      ok | ⟨msg, refused⟩
    · simp only [ok] at hs
      cases hs
      refine h.next [] (SubscriberRegistry.get?_modify_self hsub _) ?_ (List.append_nil _).symm
      intro other popped entry
      rw [hsub] at entry
      cases entry
      rfl
    · simp only [refused] at hs
      cases hs
      refine h.next [.pushControl (.error "subscribe" msg)]
        (SubscriberRegistry.get?_modify_self hsub _) ?_ (List.append_nil _).symm
      intro other popped entry
      rw [hsub] at entry
      cases entry
      rfl
  · cases hs

theorem popFrame_offers (h : Offers textLen conn queue s)
    (hs : step valueLen textLen checks conn patterns afterSeq s .popFrame = some t) :
    Offers textLen conn queue t := by
  simp only [step] at hs
  split at hs
  · cases hs
  · obtain ⟨⟨frame, r⟩, popped, rfl⟩ := Option.map_eq_some_iff.mp hs
    unfold SubscriberRegistry.popFrame at popped
    split at popped
    · cases popped
    · rename_i sub hsub
      obtain ⟨⟨_, rest⟩, pop, eq⟩ := Option.map_eq_some_iff.mp popped
      cases eq
      refine h.next [.pop] (OrdMap.get?_insert_self _ _ _) ?_ (List.append_nil _).symm
      intro other popped entry
      rw [hsub] at entry
      cases entry
      simp only [List.foldl_cons, List.foldl_nil, OutboundQueue.call, pop]

theorem step_offers (hv : Valid P afterSeq conn s) (h : Offers textLen conn queue s) {a : Action}
    (hs : step valueLen textLen checks conn patterns afterSeq s a = some t) :
    Offers textLen conn queue t := by
  cases a with
  | plane a => exact plane_offers hv h hs
  | subscribe => exact subscribe_offers hv h hs
  | popFrame => exact popFrame_offers h hs
  | loadFloor | loadHead | readRows =>
    simp only [step] at hs
    split at hs
    · cases hs
      exact h.same rfl rfl
    · cases hs

/-- No hole between replay and live delivery: once the replay is served and the
fan-out of a committed event has pushed, the event was replayed, or `push_event` was called with
it on the connection's queue. -/
theorem handoff_no_hole (valueLen : StoredEvent → Nat) (textLen : SubServerMsg → Nat)
    (checks : Bool) (conn : Nat) (patterns : List String) (afterSeq : Nat)
    (queue : OutboundQueue) (s : State) (frames : Option (List SubServerMsg))
    (h : Reaches (Starts valueLen conn queue)
      (step valueLen textLen checks conn patterns afterSeq) NoPrune s)
    (served : s.handler = .served frames) (row : StampedEvent) (committed : s.plane.Committed row)
    (u64 : row.seq < u64Size) (after : afterSeq < row.seq)
    (matched : anyMatches (requested patterns) row.channel = true)
    (pushed : ¬ s.plane.Unpushed row) :
    ((∃ fs, frames = some fs ∧ .event row ∈ fs) ∨ row ∈ s.offered) ∧
      Offers textLen conn queue s := by
  obtain ⟨valid, offers⟩ := h.invariant
    (fun s => Valid (requested patterns) afterSeq conn s ∧ Offers textLen conn queue s)
    (fun _ starts => ⟨starts_valid starts, starts_offers starts⟩)
    fun _ _ _ _ inv keep hs => ⟨step_valid inv.1 keep hs, step_offers inv.1 inv.2 hs⟩
  have staged := valid.staged
  rw [served] at staged
  refine ⟨?_, offers⟩
  obtain (le | ge | streamed) | unpushed | offered := staged row committed matched
  · omega
  · omega
  · exact .inl streamed
  · exact absurd unpushed pushed
  · exact .inr offered

def newShared : Shared := ⟨.empty, 0, 0, 0, 0, ⟨86400, 2 ^ 30, 1000000⟩⟩

def connected : State :=
  ⟨⟨((SubscriberRegistry.withDelivery newShared).insert ⟨"ops", none, .new 4 1000, none⟩).2,
    .idle, []⟩, .waiting, []⟩

/-- The second event is committed before the head is loaded and counted after it. -/
def handoffActions : List Action :=
  let event : Event := ⟨"dev.one", "MQ=="⟩
  [.plane (.log (.commitRows (fun _ => 7) [event] 0)), .plane (.log .storeHead),
    .plane (.log .raiseFloor), .plane (.push 0), .subscribe, .loadFloor,
    .plane (.log (.commitRows (fun _ => 8) [event] 1)), .loadHead, .readRows,
    .plane (.log .storeHead), .plane (.log .raiseFloor), .plane (.push 0)]

/-- What the replay of that run streams. -/
def handoffFrames : List SubServerMsg :=
  [.ok "subscribe", .event ⟨1, 7, 0, "dev.one", "MQ=="⟩, .replayed 1]

theorem connected_starts : Starts (fun _ => 90) 1 (.new 4 1000) connected := by
  refine ⟨⟨newShared, rfl, .empty, 1, 0, newShared.limits, none, 0, by decide, ?_, rfl⟩, rfl, rfl,
    ⟨_, rfl, rfl⟩, by decide, rfl, rfl⟩
  intro k
  simp only [OrdMap.get?_empty, reduceCtorEq, exists_false, false_iff]
  omega

theorem handoff_no_hole_second_event :
    ∃ (s : State) (row : StampedEvent),
      Reaches (Starts (fun _ => 90) 1 (.new 4 1000))
        (step (fun _ => 90) (fun _ => 90) true 1 [">"] 0) NoPrune s ∧
      row.seq = 2 ∧ s.plane.Committed row ∧
      ((∃ fs, some handoffFrames = some fs ∧ .event row ∈ fs) ∨ row ∈ s.offered) ∧
      Offers (fun _ => 90) 1 (.new 4 1000) s := by
  have run : (exec (guarded NoPrune (step (fun _ => 90) (fun _ => 90) true 1 [">"] 0)) connected
      handoffActions).map (fun s => (s.handler, s.plane.writer, s.plane.pending,
        s.plane.registry.delivery.bind (·.db.get? 2))) = some (.served (some handoffFrames), .idle,
        [], some ⟨8, 1, "dev.one", "MQ=="⟩) := by decide
  obtain ⟨s, hs, hp⟩ := Option.map_eq_some_iff.mp run
  simp only [Prod.mk.injEq] at hp
  obtain ⟨served, idle, none, found⟩ := hp
  obtain ⟨shared, delivery, hrow⟩ := Option.bind_eq_some_iff.mp found
  have hr := reaches_of_exec _ (.start connected_starts) hs
  let row : StampedEvent := ⟨2, 8, 1, "dev.one", "MQ=="⟩
  have committed : s.plane.Committed row := ⟨shared, delivery, hrow⟩
  have pushed : ¬ s.plane.Unpushed row := by simp [Plane.Unpushed, idle, none, Writer.rows]
  exact ⟨s, row, hr, rfl, committed, handoff_no_hole _ _ true 1 [">"] 0 _ s _ hr served row committed
    (by decide) (by decide) (by decide) pushed⟩

end Whdr.Handoff
