import Whdr.Delivery.ServerSide

/-! A connection whose event frames fit its queue: drops that are not reported yet have a
frame behind them that will report them. -/
namespace Whdr

namespace OutboundQueue

variable {textLen : SubServerMsg → Nat}

theorem evict_limit (incomingBytes passes : Nat) (q : OutboundQueue) :
    (evict textLen incomingBytes passes q).maxEventBytes = q.maxEventBytes := by
  induction passes generalizing q with
  | zero => rfl
  | succ passes ih =>
    unfold evict
    split
    · split
      · rfl
      · rw [ih]
        rfl
    · rfl

theorem pushEvent_limit (q : OutboundQueue) (msg : SubServerMsg) :
    (q.pushEvent textLen msg).maxEventBytes = q.maxEventBytes := by
  unfold pushEvent
  split
  · rfl
  · exact evict_limit _ _ q

/-- A message that fits is queued, whatever it evicts. -/
theorem pushEvent_queued {q : OutboundQueue} {msg : SubServerMsg}
    (fits : textLen msg ≤ q.maxEventBytes) : (q.pushEvent textLen msg).inner ≠ [] := by
  rw [pushEvent, if_neg (Nat.not_lt.mpr fits)]
  exact List.append_ne_nil_of_right_ne_nil _ (List.cons_ne_nil _ _)

theorem pushEvents_fit {msgs : List SubServerMsg} {q : OutboundQueue}
    (fits : ∀ msg ∈ msgs, textLen msg ≤ q.maxEventBytes) :
    (q.pushEvents textLen msgs).maxEventBytes = q.maxEventBytes ∧
      (msgs = [] ∨ (q.pushEvents textLen msgs).inner ≠ []) := by
  induction msgs generalizing q with
  | nil => exact ⟨rfl, .inl rfl⟩
  | cons msg rest ih =>
    obtain ⟨head, tail⟩ := List.forall_mem_cons.mp fits
    have limit := @pushEvent_limit textLen q msg
    obtain ⟨same, queued⟩ := ih (q := q.pushEvent textLen msg) fun m mem => limit ▸ tail m mem
    refine ⟨same.trans limit, .inr ?_⟩
    obtain rfl | queued := queued
    · exact pushEvent_queued head
    · exact queued

end OutboundQueue

namespace Network

open SubscriberWs (requested)

/-- The text of every event pushed to the client fits its queue. -/
def FramesFit (cfg : Config) (s : State) : Action → Prop
  | .plane (.push i) =>
    ∀ row ∈ matching (requested cfg.patterns) ((s.plane.pending[i]?).getD []),
      cfg.textLen (.event row) ≤ max cfg.queueBytes 1
  | _ => True

/-- The entry of the session's task. Past the subscribe it has the client's patterns. -/
structure EntryReported (cfg : Config) (task : Task) (sub : Subscriber) : Prop where
  budget : sub.queue.maxEventBytes = max cfg.queueBytes 1
  reported : 0 < sub.queue.lagPending →
    sub.queue.inner ≠ [] ∨ ∃ through frame, task = .holding through frame
  subscribed : task ≠ .welcomed → Same (requested cfg.patterns) sub

def Reported (cfg : Config) (s : State) : Prop :=
  ∀ x sub, s.session = some x → x.task ≠ .ended →
    s.plane.registry.subscribers.get? x.conn = some sub → EntryReported cfg x.task sub

variable {cfg : Config} {s t : State} {x : Session} {sub : Subscriber} {a : Action} {c0 : Nat}
  {task : Task} {wire : List SubServerMsg} {r : SubscriberRegistry}

/-- The task goes on, with the entry as it is. -/
theorem EntryReported.moves (h : EntryReported cfg x.task sub)
    (held : ∀ through frame, x.task = .holding through frame → task = x.task)
    (welcomed : task ≠ .welcomed → x.task ≠ .welcomed) : EntryReported cfg task sub := by
  refine ⟨h.budget, fun lag => ?_, fun asked => h.subscribed (welcomed asked)⟩
  obtain queued | ⟨through, frame, holds⟩ := h.reported lag
  · exact .inl queued
  · exact .inr ⟨through, frame, (held through frame holds).trans holds⟩

/-- What a session's task leaves behind. -/
theorem reported_set {conn : Nat} (entry : ∀ sub, r.subscribers.get? conn = some sub →
    EntryReported cfg task sub) :
    Reported cfg ((s.setRegistry r).setSession ⟨conn, task, wire⟩) := by
  rintro y sub ⟨⟩ _ found
  exact entry sub found

theorem reported_ended {conn : Nat} :
    Reported cfg ((s.setRegistry r).setSession ⟨conn, .ended, wire⟩) := by
  rintro y sub ⟨⟩ running _
  exact absurd rfl running

/-- Nothing of the session changes. -/
theorem Reported.same (h : Reported cfg s) (session : t.session = s.session)
    (entry : ∀ x, s.session = some x → x.task ≠ .ended →
      t.plane.registry.subscribers.get? x.conn = s.plane.registry.subscribers.get? x.conn) :
    Reported cfg t := by
  intro x sub hx running found
  rw [session] at hx
  exact h x sub hx running (entry x hx running ▸ found)

variable (hv : Valid (requested cfg.patterns) c0 s) (h : Reported cfg s)

include hv in
theorem patterns_welcomed (hx : s.session = some x) (welcomed : x.task = .welcomed)
    (entry : s.plane.registry.subscribers.get? x.conn = some sub) : sub.patterns = [] := by
  obtain ⟨sub', attached⟩ := attached_of_running hv hx (by simp [welcomed])
  have task := attached.task
  rw [welcomed] at task
  obtain rfl := Option.some.inj (entry.symm.trans attached.entry)
  exact task.2.1

include hv h in
theorem push_reported {i : Nat} (fit : FramesFit cfg s (.plane (.push i)))
    (hs : step cfg s (.plane (.push i)) = some t) : Reported cfg t := by
  obtain ⟨p, hp, rfl⟩ := Option.map_eq_some_iff.mp hs
  obtain ⟨rows, found, rfl⟩ := Plane.push_step hp
  intro x sub' hx running entry
  rw [SubscriberRegistry.get?_deliver] at entry
  obtain ⟨sub, old, rfl⟩ := Option.map_eq_some_iff.mp entry
  obtain ⟨budget, reported, subscribed⟩ := h x sub hx running old
  rw [SubscriberRegistry.foldl_offer]
  have fits : ∀ msg ∈ (SubscriberRegistry.offeredTo sub rows).map SubServerMsg.event,
      cfg.textLen msg ≤ sub.queue.maxEventBytes := by
    intro msg mem
    obtain ⟨row, isRow, rfl⟩ := List.mem_map.mp mem
    by_cases welcomed : x.task = .welcomed
    · rw [offeredTo_none (patterns_welcomed hv hx welcomed old)] at isRow
      cases isRow
    · rw [offeredTo_same (subscribed welcomed)] at isRow
      rw [budget]
      exact fit row (by rw [found]; exact isRow)
  obtain ⟨limit, none | queued⟩ := OutboundQueue.pushEvents_fit fits
  · rw [none]
    exact ⟨budget, reported, subscribed⟩
  · exact ⟨limit.trans budget, fun _ => .inl queued, subscribed⟩

include hv h in
theorem plane_reported {a : PlaneAction} (lifetime : OneLifetime s (.plane a))
    (fit : FramesFit cfg s (.plane a)) (hs : step cfg s (.plane a) = some t) : Reported cfg t := by
  cases a with
  | push i => exact push_reported hv h fit hs
  | log a =>
    obtain ⟨p, hp, rfl⟩ := Option.map_eq_some_iff.mp hs
    obtain ⟨shared, low, last, plane⟩ := hv.plane
    have keep : Plane.NoPrune (.log a) := by
      cases a with
      | commitPrune nowMs => exact absurd lifetime id
      | _ => trivial
    refine h.same rfl fun x _ _ => ?_
    exact congrArg (OrdMap.get? · x.conn) (Plane.log_step plane keep hp).2.subscribers
  | stampInMemory mint tsMs events =>
    obtain ⟨shared, low, last, plane⟩ := hv.plane
    simp [step, Plane.step, plane.delivery] at hs
  | connection op =>
    simp only [step] at hs
    split at hs
    · cases hs
    · rename_i foreign
      cases hs
      refine h.same rfl fun x hx running => ?_
      obtain ⟨sub, attached⟩ := attached_of_running hv hx running
      refine (s.plane.registry.apply_other op (fun same => foreign ⟨by simp [same], ?_⟩)
        attached.registered).1
      rw [same, hx]
      simp only [Option.bind_some, Session.live]

include hv h in
theorem session_reported {parsed : List Pattern}
    (parses : SubscriberRegistry.parsePatterns cfg.patterns = .ok parsed)
    (hx : s.session = some x) (hs : sessionStep cfg s x a = some t) : Reported cfg t := by
  cases a with
  | subscribe =>
    simp only [sessionStep] at hs
    split at hs
    · rename_i welcomed
      obtain ⟨shared, low, last, plane⟩ := hv.plane
      simp only [SubscriberWs.handleSubscriberText, SubscriberRegistry.subscribe, parses,
        (SubscriberRegistry.modify_same s.plane.registry x.conn _).1, plane.delivery] at hs
      cases hs
      refine reported_set fun sub' found => ?_
      rw [SubscriberRegistry.get?_modify, if_pos rfl] at found
      obtain ⟨sub, old, rfl⟩ := Option.map_eq_some_iff.mp found
      obtain ⟨budget, reported, _⟩ := h x sub hx (by simp [welcomed]) old
      refine ⟨budget, fun lag => ?_, fun _ => ?_⟩
      · obtain queued | ⟨through, frame, holds⟩ := reported lag
        · exact .inl queued
        · cases welcomed.symm.trans holds
      · rw [← SubscriberWs.requested_of_parsed parses]
        exact same_addPatterns (patterns_welcomed hv hx welcomed old)
    · cases hs
  | loadFloor =>
    simp only [sessionStep] at hs
    split at hs
    · rename_i task _
      cases hs
      exact reported_set (r := s.plane.registry) fun sub found =>
        (h x sub hx (by simp [task]) found).moves (by simp [task]) (by simp [task])
    · cases hs
  | loadHead =>
    simp only [sessionStep] at hs
    split at hs
    · rename_i task _
      cases hs
      exact reported_set (r := s.plane.registry) fun sub found =>
        (h x sub hx (by simp [task]) found).moves (by simp [task]) (by simp [task])
    · cases hs
  | readRows =>
    simp only [sessionStep] at hs
    split at hs
    · rename_i task _
      split at hs
      · cases hs
        exact reported_set (r := s.plane.registry) fun sub found =>
          (h x sub hx (by simp [task]) found).moves (by simp [task]) (by simp [task])
      · cases hs
        exact reported_ended (r := s.plane.registry)
    · cases hs
  | popFrame =>
    simp only [sessionStep] at hs
    split at hs
    · rename_i through task
      obtain ⟨⟨frame, r⟩, popped, rfl⟩ := Option.map_eq_some_iff.mp hs
      obtain ⟨sub, attached⟩ := attached_of_running hv hx (by simp [task])
      simp only [SubscriberRegistry.popFrame, attached.entry] at popped
      obtain ⟨⟨first, queue⟩, taken, same⟩ := Option.map_eq_some_iff.mp popped
      cases same
      refine reported_set fun sub' found => ?_
      rw [OrdMap.get?_insert_self] at found
      cases found
      obtain ⟨budget, _, subscribed⟩ := h x sub hx (by simp [task]) attached.entry
      refine ⟨?_, fun _ => .inr ⟨_, _, rfl⟩, fun _ => subscribed (by simp [task])⟩
      unfold OutboundQueue.pop at taken
      split at taken
      · cases taken
      · cases taken
        exact budget
    · cases hs
  | sendFrame =>
    simp only [sessionStep] at hs
    split at hs
    · rename_i sub task entry
      split at hs
      · cases hs
        exact reported_ended
      · cases hs
        refine reported_set fun sub' found => ?_
        rw [SubscriberRegistry.get?_modify_self entry] at found
        cases found
        obtain ⟨budget, _, subscribed⟩ := h x sub hx (by simp [task]) entry
        exact ⟨budget, fun lag => absurd lag (Nat.lt_irrefl 0), fun _ => subscribed (by simp [task])⟩
    · cases hs
  | close reason =>
    simp only [sessionStep] at hs
    split at hs
    · cases hs
      exact reported_ended
    · cases hs
      exact reported_ended
    · cases hs
  | dropConnection =>
    simp only [sessionStep] at hs
    split at hs
    · cases hs
    · cases hs
      exact reported_ended
  | receive =>
    simp only [sessionStep] at hs
    split at hs
    · cases hs
    · rename_i msg rest hw
      cases hs
      simp only [receive]
      split
      · rintro y sub ⟨⟩ running found
        exact h x sub hx running found
      · rintro y sub ⟨⟩
      · rintro y sub ⟨⟩
  | disconnect =>
    cases hs
    rintro y sub ⟨⟩
  | plane | restart | connect => cases hs

theorem connect_reported (hs : step cfg s .connect = some t) : Reported cfg t := by
  simp only [step] at hs
  split at hs
  · cases hs
  · split at hs
    · cases hs
    · cases hs
      refine reported_set fun sub found => ?_
      simp only [SubscriberRegistry.insert, OrdMap.get?_insert_self] at found
      cases found
      exact ⟨rfl, fun lag => absurd lag (Nat.lt_irrefl 0), fun other => absurd rfl other⟩

include hv h in
theorem step_reported {parsed : List Pattern}
    (parses : SubscriberRegistry.parsePatterns cfg.patterns = .ok parsed)
    (lifetime : OneLifetime s a) (fit : FramesFit cfg s a) (hs : step cfg s a = some t) :
    Reported cfg t := by
  have session : (s.session.bind fun x => sessionStep cfg s x a) = some t → Reported cfg t := by
    intro hs
    obtain ⟨x, hx, hs⟩ := Option.bind_eq_some_iff.mp hs
    exact session_reported hv h parses hx hs
  cases a with
  | plane a => exact plane_reported hv h lifetime fit hs
  | restart => exact absurd lifetime id
  | connect => exact connect_reported hs
  | subscribe | loadFloor | loadHead | readRows | popFrame | sendFrame | close | dropConnection
  | receive | disconnect => exact session hs

end Network

end Whdr
