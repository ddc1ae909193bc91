import Whdr.Delivery.KitNetwork

/-! The steps in which only the server takes part: they read nothing of the client, and
put frames behind those in flight. -/
namespace Whdr.Network

open KitNetwork (serverSide)
open Plane (Book)
open SubscriberWs (requested)

variable {cfg : Config} {s t : State} {x : Session} {a : Action} {P : List Pattern} {c0 : Nat}

/-- The server of `s` with the client of `n`. -/
def State.withClient (s n : State) : State :=
  ⟨s.plane, s.session, n.client, n.stopped, n.received⟩

/-- What a step of the server does to a session. -/
structure Serves (x y : Session) : Prop where
  wire : ∃ more, y.wire = x.wire ++ more
  task : y.task = .ended ∨ (x.task ≠ .welcomed ∧ x.task ≠ .ended ∧ y.task ≠ .welcomed)

/-- The server's own steps in a session. -/
structure ServedStep (s : State) (x : Session) (t : State) : Prop where
  delivery : t.plane.registry.delivery = s.plane.registry.delivery
  writer : t.plane.writer = s.plane.writer
  client : t = t.withClient s
  session : ∃ y, t.session = some y ∧ Serves x y

theorem served_endTask {wire more : List SubServerMsg} (behind : wire = x.wire ++ more) :
    ServedStep s x (s.endTask x wire) where
  delivery := rfl
  writer := rfl
  client := rfl
  session := ⟨_, rfl, ⟨more, behind⟩, .inl rfl⟩

theorem served_setSession {r : SubscriberRegistry} {task : Task} {more : List SubServerMsg}
    (delivery : r.delivery = s.plane.registry.delivery)
    (moves : task = .ended ∨ (x.task ≠ .welcomed ∧ x.task ≠ .ended ∧ task ≠ .welcomed)) :
    ServedStep s x ((s.setRegistry r).setSession ⟨x.conn, task, x.wire ++ more⟩) where
  delivery := delivery
  writer := rfl
  client := rfl
  session := ⟨_, rfl, ⟨more, rfl⟩, moves⟩

theorem popFrame_delivery {r r' : SubscriberRegistry} {id : Nat} {frame : Frame}
    (popped : r.popFrame id = some (frame, r')) : r'.delivery = r.delivery := by
  have same := (r.apply_same (.popFrame id)).1
  rw [SubscriberRegistry.apply, popped] at same
  exact same

theorem sessionStep_served (side : serverSide a = true)
    (hs : sessionStep cfg s x a = some t) : ServedStep s x t := by
  have quiet : ∀ task : Task, ⟨x.conn, task, x.wire ++ []⟩ = { x with task := task } := by
    intro task
    rw [List.append_nil]
  cases a with
  | loadFloor =>
    simp only [sessionStep] at hs
    split at hs
    · rename_i task _
      cases hs
      exact quiet _ ▸ served_setSession (r := s.plane.registry) rfl
        (.inr ⟨by simp [task], by simp [task], by simp⟩)
    · cases hs
  | loadHead =>
    simp only [sessionStep] at hs
    split at hs
    · rename_i task _
      cases hs
      exact quiet _ ▸ served_setSession (r := s.plane.registry) rfl
        (.inr ⟨by simp [task], by simp [task], by simp⟩)
    · cases hs
  | readRows =>
    simp only [sessionStep] at hs
    split at hs
    · rename_i task _
      split at hs
      · cases hs
        exact served_setSession (r := s.plane.registry) rfl
          (.inr ⟨by simp [task], by simp [task], by simp⟩)
      · cases hs
        exact quiet _ ▸ served_setSession (r := s.plane.registry) rfl (.inl rfl)
    · cases hs
  | popFrame =>
    simp only [sessionStep] at hs
    split at hs
    · rename_i task
      obtain ⟨⟨frame, r⟩, popped, rfl⟩ := Option.map_eq_some_iff.mp hs
      exact quiet _ ▸ served_setSession (popFrame_delivery popped)
        (.inr ⟨by simp [task], by simp [task], by simp⟩)
    · cases hs
  | sendFrame =>
    simp only [sessionStep] at hs
    split at hs
    · rename_i task _
      have same (f : Subscriber → Subscriber) := (s.plane.registry.modify_same x.conn f).1
      split at hs
      · cases hs
        exact ⟨same _, rfl, rfl, _, rfl, ⟨_, rfl⟩, .inl rfl⟩
      · cases hs
        exact served_setSession (same _) (.inr ⟨by simp [task], by simp [task], by simp⟩)
    · cases hs
  | close reason =>
    simp only [sessionStep] at hs
    split at hs
    · cases hs
      exact served_endTask rfl
    · cases hs
      exact served_endTask rfl
    · cases hs
  | dropConnection =>
    simp only [sessionStep] at hs
    split at hs
    · cases hs
    · cases hs
      exact served_endTask (List.append_nil _).symm
  | plane a => cases hs
  | restart | connect | subscribe | receive | disconnect => cases side

/-- They do the same whatever client is connected. -/
theorem sessionStep_withClient (side : serverSide a = true) (n : State) :
    sessionStep cfg (s.withClient n) x a = (sessionStep cfg s x a).map (·.withClient n) := by
  cases a with
  | plane a => rfl
  | loadFloor => simp only [sessionStep, State.withClient]; split <;> rfl
  | loadHead => simp only [sessionStep, State.withClient]; split <;> rfl
  | readRows =>
    simp only [sessionStep, State.withClient]
    split
    · split <;> rfl
    · rfl
  | popFrame =>
    simp only [sessionStep, State.withClient]
    split
    · rw [Option.map_map]; rfl
    · rfl
  | sendFrame =>
    simp only [sessionStep, State.withClient]
    split
    · split <;> rfl
    · rfl
  | close reason => simp only [sessionStep, State.withClient]; split <;> rfl
  | dropConnection => simp only [sessionStep, State.withClient]; split <;> rfl
  | restart | connect | subscribe | receive | disconnect => cases side

theorem step_withClient (side : serverSide a = true) (n : State) :
    step cfg (s.withClient n) a = (step cfg s a).map (·.withClient n) := by
  have session : ((s.withClient n).session.bind fun x => sessionStep cfg (s.withClient n) x a) =
      (s.session.bind fun x => sessionStep cfg s x a).map (·.withClient n) := by
    simp only [State.withClient]
    cases s.session with
    | none => rfl
    | some x => exact sessionStep_withClient side n
  cases a with
  | plane a =>
    cases a with
    | connection op =>
      by_cases own : op.conn ≠ none ∧ op.conn = s.session.bind Session.live
      · have refused : step cfg s (.plane (.connection op)) = none := if_pos own
        rw [refused]
        exact if_pos own
      · have applied : step cfg s (.plane (.connection op)) =
            (s.plane.step cfg.valueLen cfg.textLen (.connection op)).map
              fun p => { s with plane := p } := if_neg own
        rw [applied, Option.map_map]
        exact if_neg own
    | log a => simp only [step, State.withClient, Option.map_map]; rfl
    | push i => simp only [step, State.withClient, Option.map_map]; rfl
    | stampInMemory mint tsMs events =>
      simp only [step, State.withClient, Option.map_map]; rfl
  | restart | connect | subscribe | receive | disconnect => cases side
  | loadFloor | loadHead | readRows | popFrame | sendFrame | close | dropConnection =>
    exact session

theorem connect_withClient {n : State} (running : n.stopped = s.stopped) :
    step cfg (s.withClient n) .connect = (step cfg s .connect).map (·.withClient n) := by
  simp only [step, State.withClient, running]
  split
  · rfl
  · split <;> rfl

/-- What a connection begins with. -/
theorem connect_session (hs : step cfg s .connect = some t) :
    t.plane.registry.delivery = s.plane.registry.delivery ∧
      ∃ id, t.session = some ⟨id, .welcomed, [.welcome cfg.name]⟩ := by
  simp only [step] at hs
  split at hs
  · cases hs
  · split at hs
    · cases hs
    · cases hs
      exact ⟨rfl, _, rfl⟩

/-- A step of the server keeps the session or goes on with it. -/
theorem served_session (side : serverSide a = true) (hs : step cfg s a = some t) :
    t = t.withClient s ∧ (t.session = s.session ∨
      ∃ x y, s.session = some x ∧ t.session = some y ∧ Serves x y) := by
  have session : (s.session.bind fun x => sessionStep cfg s x a) = some t →
      t = t.withClient s ∧ (t.session = s.session ∨
        ∃ x y, s.session = some x ∧ t.session = some y ∧ Serves x y) := by
    intro hs
    obtain ⟨x, hx, hs⟩ := Option.bind_eq_some_iff.mp hs
    obtain ⟨_, _, client, y, hy, serves⟩ := sessionStep_served side hs
    exact ⟨client, .inr ⟨x, y, hx, hy, serves⟩⟩
  cases a with
  | plane a =>
    cases a with
    | connection op =>
      simp only [step] at hs
      split at hs
      · cases hs
      · cases hs
        exact ⟨rfl, .inl rfl⟩
    | log a =>
      obtain ⟨p, _, rfl⟩ := Option.map_eq_some_iff.mp hs
      exact ⟨rfl, .inl rfl⟩
    | push i =>
      obtain ⟨p, _, rfl⟩ := Option.map_eq_some_iff.mp hs
      exact ⟨rfl, .inl rfl⟩
    | stampInMemory mint tsMs events =>
      obtain ⟨p, _, rfl⟩ := Option.map_eq_some_iff.mp hs
      exact ⟨rfl, .inl rfl⟩
  | restart | connect | subscribe | receive | disconnect => cases side
  | loadFloor | loadHead | readRows | popFrame | sendFrame | close | dropConnection =>
    exact session hs

/-- No committed row goes in a lifetime without prunes. -/
theorem served_committed (hv : Valid P c0 s) (side : serverSide a = true)
    (lifetime : OneLifetime s a) (hs : step cfg s a = some t) {row : StampedEvent}
    (committed : s.plane.Committed row) : t.plane.Committed row := by
  have kept : ∀ {p : Plane}, p.registry.delivery = s.plane.registry.delivery → p.Committed row := by
    rintro p same
    obtain ⟨shared, log, found⟩ := committed
    exact ⟨shared, same ▸ log, found⟩
  have session : (s.session.bind fun x => sessionStep cfg s x a) = some t →
      t.plane.Committed row := by
    intro hs
    obtain ⟨x, _, hs⟩ := Option.bind_eq_some_iff.mp hs
    exact kept (sessionStep_served side hs).delivery
  cases a with
  | plane a =>
    cases a with
    | connection op =>
      simp only [step] at hs
      split at hs
      · cases hs
      · cases hs
        exact kept (SubscriberRegistry.apply_same _ op).1
    | log a =>
      obtain ⟨p, hp, rfl⟩ := Option.map_eq_some_iff.mp hs
      obtain ⟨shared, low, last, plane⟩ := hv.plane
      have keep : Plane.NoPrune (.log a) := by
        cases a with
        | commitPrune nowMs => exact absurd lifetime id
        | _ => trivial
      exact (Plane.log_step plane keep hp).2.book.committed row committed
    | push i =>
      obtain ⟨p, hp, rfl⟩ := Option.map_eq_some_iff.mp hs
      obtain ⟨rows, found, rfl⟩ := Plane.push_step hp
      exact kept rfl
    | stampInMemory mint tsMs events =>
      obtain ⟨shared, low, last, plane⟩ := hv.plane
      simp [step, Plane.step, plane.delivery] at hs
  | restart | connect | subscribe | receive | disconnect => cases side
  | loadFloor | loadHead | readRows | popFrame | sendFrame | close | dropConnection =>
    exact session hs

/-! ## The client comes and goes -/

/-- A client that keeps its cursor may forget what it has seen. -/
theorem Valid.again (hv : Valid P c0 s) (capacity : Nat) :
    Valid P c0 { s with
      client := ⟨ResumeState.new s.client.resume.cursor capacity, s.client.handled⟩ } where
  plane := hv.plane
  ids := hv.ids
  client :=
    { handled := hv.client.handled
      seen := nofun
      cursor := hv.client.cursor
      sound := hv.client.sound }
  session := hv.session

theorem Valid.hangUp (hv : Valid P c0 s) : Valid P c0 { s with session := none } :=
  ⟨hv.plane, hv.ids, hv.client, nofun⟩

end Whdr.Network
