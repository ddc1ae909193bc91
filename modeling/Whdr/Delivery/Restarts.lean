import Whdr.Delivery.RestartSteps

/-! The kit without a delivery log, over any number of server restarts. The numbers of
events start again with every server process while the client keeps its cursor. -/
namespace Whdr.Restarts

open Network
open Runs (Reaches exec guarded reaches_of_exec)

variable {cfg : Config} {s t : State} {x : Session}

theorem sessionStep_valid (hv : Valid s) (hx : s.session = some x) {a : Action}
    (hs : sessionStep cfg s x a = some t) : Valid t := by
  cases a with
  | subscribe => exact subscribe_valid hv hx hs
  | loadFloor => simp [sessionStep, hv.plane.delivery] at hs
  | loadHead => simp [sessionStep, hv.plane.delivery] at hs
  | readRows => simp [sessionStep, hv.plane.delivery] at hs
  | popFrame => exact popFrame_valid hv hx hs
  | sendFrame => exact sendFrame_valid hv hx hs
  | close reason =>
    have closing : eventsOf (x.wire ++ [.closing reason]) = eventsOf x.wire := by
      simp [eventsOf]
    simp only [sessionStep] at hs
    split at hs
    · rename_i task
      cases hs
      exact endTask_valid hv hx (by simp [task]) closing
    · rename_i task
      cases hs
      exact endTask_valid hv hx (by simp [task]) closing
    · cases hs
  | dropConnection =>
    simp only [sessionStep] at hs
    split at hs
    · cases hs
    · rename_i running
      cases hs
      exact endTask_valid hv hx running rfl
  | receive =>
    simp only [sessionStep] at hs
    split at hs
    · cases hs
    · rename_i msg rest hw
      cases hs
      exact receive_valid hv hx hw
  | disconnect =>
    cases hs
    exact ⟨hv.plane, hv.seen, hv.received, by rintro _ ⟨⟩⟩
  | plane a => cases hs
  | restart => cases hs
  | connect => cases hs

theorem step_valid (hv : Valid s) {a : Action} (single : OneAtATime s a) (ahead : CounterAhead s a)
    (hs : step cfg s a = some t) : Valid t := by
  have session : (s.session.bind fun x => sessionStep cfg s x a) = some t → Valid t := by
    intro hs
    obtain ⟨x, hx, hs⟩ := Option.bind_eq_some_iff.mp hs
    exact sessionStep_valid hv hx hs
  cases a with
  | plane a =>
    cases a with
    | log a => simp [step, Plane.step, hv.plane.delivery] at hs
    | push i =>
      obtain ⟨p, hp, rfl⟩ := Option.map_eq_some_iff.mp hs
      exact push_valid hv ahead hp
    | stampInMemory mint tsMs events =>
      obtain ⟨p, hp, rfl⟩ := Option.map_eq_some_iff.mp hs
      exact stamp_valid hv single hp
    | connection op => exact connection_valid hv hs
  | restart => exact restart_valid hv hs
  | connect => exact connect_valid hv hs
  | subscribe => exact session hs
  | loadFloor => exact session hs
  | loadHead => exact session hs
  | readRows => exact session hs
  | popFrame => exact session hs
  | sendFrame => exact session hs
  | close reason => exact session hs
  | dropConnection => exact session hs
  | receive => exact session hs
  | disconnect => exact session hs

theorem starts_valid (h : Starts s) : Valid s := by
  obtain ⟨cursor, capacity, rfl⟩ := h
  exact ⟨⟨rfl, Nat.zero_le _, nofun, nofun⟩, nofun, nofun, nofun⟩

/-- As long as every event pushed to the client is numbered above its cursor, the
client drops only events it has handled, over any number of restarts. -/
theorem only_duplicates_dropped (cfg : Config) (s : State)
    (h : Reaches Starts (step cfg) (fun s a => OneAtATime s a ∧ CounterAhead s a) s) :
    OnlyDuplicatesDropped s := by
  have valid : Valid s :=
    h.invariant _ (fun _ => starts_valid) fun _ _ _ _ hv ok hs => step_valid hv ok.1 ok.2 hs
  exact valid.received

instance (s : State) (a : Action) : Decidable (OneAtATime s a) :=
  match a with
  | .plane (.stampInMemory _ _ _) => inferInstanceAs (Decidable (s.plane.pending = []))
  | .plane (.push _) | .plane (.log _) | .plane (.connection _) | .restart | .connect
  | .subscribe | .loadFloor | .loadHead | .readRows | .popFrame | .sendFrame | .close _
  | .dropConnection | .receive | .disconnect => isTrue trivial

instance (s : State) (a : Action) : Decidable (CounterAhead s a) :=
  match a with
  | .plane (.push i) => inferInstanceAs (Decidable (∀ row ∈ offeredToClient s i, _))
  | .plane (.log _) | .plane (.stampInMemory _ _ _) | .plane (.connection _) | .restart | .connect
  | .subscribe | .loadFloor | .loadHead | .readRows | .popFrame | .sendFrame | .close _
  | .dropConnection | .receive | .disconnect => isTrue trivial

def oneClient : Config := ⟨fun _ => 90, fun _ => 90, true, "ops", [">"], 16, 4096⟩

def firstServer : State := ⟨⟨.new, .idle, []⟩, none, ⟨.new 0 8192, []⟩, false, []⟩

theorem firstServer_starts : Starts firstServer := ⟨0, 8192, rfl⟩

/-- Connect and subscribe, then one event fanned out, sent and read. -/
def oneEvent (id : Uuid) : List Action :=
  [.connect, .receive, .subscribe, .popFrame, .sendFrame, .receive, .popFrame, .sendFrame,
    .receive, .plane (.stampInMemory (fun _ => id) 0 [⟨"dev.one", "MQ=="⟩]), .plane (.push 0),
    .popFrame, .sendFrame, .receive]

theorem only_duplicates_dropped_one_event :
    ∃ s, Reaches Starts (step oneClient) (fun s a => OneAtATime s a ∧ CounterAhead s a) s ∧
      s.received.map StampedEvent.id = [7] ∧ OnlyDuplicatesDropped s := by
  have run : (exec (guarded (fun s a => OneAtATime s a ∧ CounterAhead s a) (step oneClient))
      firstServer (oneEvent 7)).map (fun s => s.received.map StampedEvent.id) = some [7] := by
    decide
  obtain ⟨s, hs, received⟩ := Option.map_eq_some_iff.mp run
  have hr := reaches_of_exec _ (.start firstServer_starts) hs
  exact ⟨s, hr, received, only_duplicates_dropped oneClient s hr⟩

/-- After a restart the first event is number 1 again, and the client drops it. -/
theorem event_dropped_after_restart :
    ¬ ∀ (cfg : Config) (s : State), Reaches Starts (step cfg) OneAtATime s →
      OnlyDuplicatesDropped s := by
  intro claim
  have run : (exec (guarded OneAtATime (step oneClient)) firstServer
      (oneEvent 7 ++ [.restart, .disconnect] ++ oneEvent 8)).map
      (fun s => (s.received.map StampedEvent.id, s.client.handled.map StampedEvent.id)) =
      some ([7, 8], [7]) := by decide
  obtain ⟨s, hs, seen⟩ := Option.map_eq_some_iff.mp run
  obtain ⟨received, handled⟩ := Prod.mk.inj seen
  have sound := claim oneClient s (reaches_of_exec _ (.start firstServer_starts) hs)
  have mem : 8 ∈ s.received.map StampedEvent.id := by rw [received]; decide
  obtain ⟨e, he, id⟩ := List.mem_map.mp mem
  obtain ⟨h, hh, same⟩ := sound e he
  have dropped : 8 ∈ s.client.handled.map StampedEvent.id :=
    List.mem_map.mpr ⟨h, hh, same.trans id⟩
  rw [handled] at dropped
  exact absurd dropped (by decide)

end Whdr.Restarts
