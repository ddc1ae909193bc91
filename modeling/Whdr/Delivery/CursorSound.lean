import Whdr.Delivery.SessionSteps

/-! Cursor soundness end to end, over any interleaving of fan-outs, pops, evictions,
disconnects, reconnects and replays in one server lifetime. -/
namespace Whdr.Network

open SubscriberWs
open DeliveryLog (Opened Shared)
open Runs (Reaches exec guarded reaches_of_exec)

/-- A server just started on its log, and a client that has not connected yet. The
rows found in the file have ids of their own. -/
def Starts (cfg : Config) (c0 : Nat) (s : State) : Prop :=
  ∃ (shared : Shared) (capacity : Nat), Opened cfg.valueLen shared ∧
    (shared.db.entries.map fun e => e.2.id).Nodup ∧
    s = ⟨⟨.withDelivery shared, .idle, []⟩, none, ⟨.new c0 capacity, []⟩, false, []⟩

/-- Every persisted event between the first cursor and the present one that a pattern
matches was passed to `on_event`. -/
def CursorSound (P : List Pattern) (c0 : Nat) (s : State) : Prop :=
  ∀ row, s.plane.Committed row → c0 < row.seq → row.seq ≤ s.client.resume.cursor →
    anyMatches P row.channel = true → row ∈ s.client.handled

variable {cfg : Config} {P : List Pattern} {c0 : Nat} {s t : State} {x : Session}

theorem sessionStep_valid (hv : Valid (requested cfg.patterns) c0 s) (hx : s.session = some x)
    {a : Action} (hs : sessionStep cfg s x a = some t) : Valid (requested cfg.patterns) c0 t := by
  cases a with
  | subscribe => exact subscribe_valid hv hx hs
  | loadFloor => exact loadFloor_valid hv hx hs
  | loadHead => exact loadHead_valid hv hx hs
  | readRows => exact readRows_valid hv hx hs
  | popFrame => exact popFrame_valid hv hx hs
  | sendFrame => exact sendFrame_valid hv hx hs
  | close reason => exact close_valid hv hx hs
  | dropConnection => exact dropConnection_valid hv hx hs
  | receive =>
    simp only [sessionStep] at hs
    split at hs
    · cases hs
    · rename_i msg rest hw
      cases hs
      exact receive_valid hv hx hw
  | disconnect =>
    cases hs
    exact ⟨hv.plane, hv.ids, hv.client, by rintro _ ⟨⟩⟩
  | plane a => cases hs
  | restart => cases hs
  | connect => cases hs

theorem connection_valid (hv : Valid P c0 s) {op : RegistryOp}
    (hs : step cfg s (.plane (.connection op)) = some t) : Valid P c0 t := by
  simp only [step] at hs
  split at hs
  · cases hs
  · rename_i foreign
    cases hs
    have other : ∀ x, s.session = some x → x.task ≠ .ended →
        op.conn ≠ some x.conn ∧ x.conn < s.plane.registry.nextId := by
      intro x hx running
      obtain ⟨sub, attached⟩ := attached_of_running hv hx running
      refine ⟨fun same => foreign ⟨by simp [same], ?_⟩, attached.registered⟩
      rw [same, hx]
      simp only [Option.bind_some, Session.live]
    refine hv.setRegistry (SubscriberRegistry.apply_same _ op).1 fun x hx running => ?_
    obtain ⟨ne, registered⟩ := other x hx running
    obtain ⟨entry, grows⟩ := s.plane.registry.apply_other op ne registered
    exact ⟨entry, Nat.lt_of_lt_of_le registered grows⟩

theorem step_valid (hv : Valid (requested cfg.patterns) c0 s) {a : Action}
    (lifetime : OneLifetime s a) (order : PushesInOrder (requested cfg.patterns) s a)
    (hs : step cfg s a = some t) : Valid (requested cfg.patterns) c0 t := by
  have session : (s.session.bind fun x => sessionStep cfg s x a) = some t →
      Valid (requested cfg.patterns) c0 t := by
    intro hs
    obtain ⟨x, hx, hs⟩ := Option.bind_eq_some_iff.mp hs
    exact sessionStep_valid hv hx hs
  cases a with
  | plane a =>
    cases a with
    | log a =>
      obtain ⟨p, hp, rfl⟩ := Option.map_eq_some_iff.mp hs
      exact log_valid hv lifetime hp
    | push i =>
      obtain ⟨p, hp, rfl⟩ := Option.map_eq_some_iff.mp hs
      exact push_valid hv order hp
    | stampInMemory mint tsMs events =>
      obtain ⟨shared, low, last, plane⟩ := hv.plane
      simp [step, Plane.step, plane.delivery] at hs
    | connection op => exact connection_valid hv hs
  | restart => exact absurd lifetime id
  | connect => exact connect_valid hv hs
  | subscribe => exact session hs
  | loadFloor => exact session hs
  | loadHead => exact session hs
  | readRows => exact session hs
  | popFrame => exact session hs
  | sendFrame => exact session hs
  | close reason => exact session hs
  | dropConnection => exact session hs
  | receive => exact session hs
  | disconnect => exact session hs

theorem starts_valid (h : Starts cfg c0 s) : Valid P c0 s := by
  obtain ⟨shared, capacity, opened, distinct, rfl⟩ := h
  obtain ⟨low, last, plane⟩ := Plane.opened_valid opened
  refine ⟨⟨shared, low, last, plane⟩, ?_, ⟨nofun, nofun, .inl rfl, ?_⟩, nofun⟩
  · intro r r' hr hr' eq
    have mem := (shared.db.get?_eq_some_iff _ _).mp ((plane.committed_iff r).mp hr)
    have mem' := (shared.db.get?_eq_some_iff _ _).mp ((plane.committed_iff r').mp hr')
    have same := List.inj_on_of_nodup_map distinct mem mem' eq
    exact hr.unique hr' (Prod.mk.inj same).1
  · intro row _ lo hi
    exact absurd lo (Nat.not_lt.mpr hi)

/-- In every run of one lifetime without prunes in which the pushes to the client
come in order, nothing wanted is below its cursor unhandled. -/
theorem cursor_sound (cfg : Config) (c0 : Nat) (s : State)
    (h : Reaches (Starts cfg c0) (step cfg)
      (fun s a => OneLifetime s a ∧ PushesInOrder (requested cfg.patterns) s a) s) :
    CursorSound (requested cfg.patterns) c0 s := by
  have valid : Valid (requested cfg.patterns) c0 s :=
    h.invariant _ (fun _ => starts_valid) fun _ _ _ _ hv ok hs => step_valid hv ok.1 ok.2 hs
  exact valid.client.sound

instance (s : State) (a : Action) : Decidable (OneLifetime s a) :=
  match a with
  | .plane (.log (.commitPrune _)) | .restart => isFalse id
  | .plane (.log (.commitRows _ _ _)) | .plane (.log .storeHead) | .plane (.log .raiseFloor)
  | .plane (.log .storePruned) => inferInstanceAs (Decidable (MintsFresh _ _))
  | .plane (.push _) | .plane (.stampInMemory _ _ _) | .plane (.connection _) | .connect
  | .subscribe | .loadFloor | .loadHead | .readRows | .popFrame | .sendFrame | .close _
  | .dropConnection | .receive | .disconnect => isTrue trivial

instance (P : List Pattern) (s : State) (a : Action) : Decidable (PushesInOrder P s a) :=
  match a with
  | .plane (.push _) => inferInstanceAs (Decidable (∀ through ∈ s.session.bind _, _))
  | .plane (.log _) | .plane (.stampInMemory _ _ _) | .plane (.connection _) | .restart | .connect
  | .subscribe | .loadFloor | .loadHead | .readRows | .popFrame | .sendFrame | .close _
  | .dropConnection | .receive | .disconnect => isTrue trivial

def oneClient : Config := ⟨fun _ => 90, fun _ => 90, true, "ops", [">"], 16, 4096⟩

def newServer : State :=
  ⟨⟨.withDelivery ⟨.empty, 0, 0, 0, 0, ⟨86400, 2 ^ 30, 1000000⟩⟩, .idle, []⟩, none,
    ⟨.new 0 8192, []⟩, false, []⟩

/-- A client subscribes, two fan-outs append one event each, and their frames are
pushed in the order given and read by the client. -/
def twoFanouts (pushes : List Nat) : List Action :=
  let append (id : Uuid) : List Action :=
    [.plane (.log (.commitRows (fun _ => id) [⟨"dev.one", "MQ=="⟩] 0)), .plane (.log .storeHead),
      .plane (.log .raiseFloor)]
  [.connect, .receive, .subscribe, .loadFloor, .loadHead, .readRows, .receive, .receive] ++
    append 7 ++ append 8 ++ pushes.map (fun i => .plane (.push i)) ++
    [.popFrame, .sendFrame, .receive, .popFrame, .sendFrame, .receive]

theorem newServer_starts : Starts oneClient 0 newServer := by
  refine ⟨⟨.empty, 0, 0, 0, 0, ⟨86400, 2 ^ 30, 1000000⟩⟩, 8192, ?_, by decide, rfl⟩
  refine ⟨.empty, 1, 0, ⟨86400, 2 ^ 30, 1000000⟩, none, 0, by decide, ?_, rfl⟩
  intro k
  simp only [OrdMap.get?_empty, reduceCtorEq, exists_false, false_iff]
  omega

/-- Pushed in the order of their numbers, both events are handled. -/
theorem cursor_sound_two_fanouts :
    ∃ s, Reaches (Starts oneClient 0) (step oneClient)
        (fun s a => OneLifetime s a ∧ PushesInOrder (requested oneClient.patterns) s a) s ∧
      s.client.resume.cursor = 2 ∧ CursorSound (requested oneClient.patterns) 0 s := by
  have run : (exec (guarded (fun s a => OneLifetime s a ∧
      PushesInOrder (requested oneClient.patterns) s a) (step oneClient)) newServer
      (twoFanouts [0, 0])).map (fun s => s.client.resume.cursor) = some 2 := by decide
  obtain ⟨s, hs, cursor⟩ := Option.map_eq_some_iff.mp run
  have hr := reaches_of_exec _ (.start newServer_starts) hs
  exact ⟨s, hr, cursor, cursor_sound oneClient 0 s hr⟩

/-- Pushed the other way round, the second event hides the first for good. -/
theorem later_push_hides_event :
    ¬ ∀ (cfg : Config) (c0 : Nat) (s : State), Reaches (Starts cfg c0) (step cfg) OneLifetime s →
      CursorSound (requested cfg.patterns) c0 s := by
  intro claim
  have run : (exec (guarded OneLifetime (step oneClient)) newServer (twoFanouts [1, 0])).map
      (fun s => (s.client.resume.cursor, s.client.handled.map StampedEvent.seq,
        s.plane.registry.delivery.bind (·.db.get? 1))) =
      some (2, [2], some ⟨7, 0, "dev.one", "MQ=="⟩) := by decide
  obtain ⟨s, hs, seen⟩ := Option.map_eq_some_iff.mp run
  simp only [Prod.mk.injEq] at seen
  obtain ⟨cursor, handled, found⟩ := seen
  obtain ⟨shared, delivery, hrow⟩ := Option.bind_eq_some_iff.mp found
  have sound := claim oneClient 0 s (reaches_of_exec _ (.start newServer_starts) hs)
  have mem := sound ⟨1, 7, 0, "dev.one", "MQ=="⟩ ⟨shared, delivery, hrow⟩ (by decide)
    (by rw [cursor]; decide) (by decide)
  have one : 1 ∈ s.client.handled.map StampedEvent.seq := List.mem_map_of_mem mem
  rw [handled] at one
  exact absurd one (by decide)

end Whdr.Network
