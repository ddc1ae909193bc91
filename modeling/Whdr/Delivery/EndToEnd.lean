import Whdr.Delivery.KitSound
import Whdr.Ingest.Genuine
import Whdr.Ingest.Pipes
import Whdr.Server.LogInvariant

/-! The whole way of a webhook: the daemon's ingest and the extensions on one side, the log, the
subscriber plane and the processes of a kit on the other, joined by the fan-outs. -/
namespace Whdr.EndToEnd

open DeliveryLog (Shared Live Spans StoredEvent stored stampRows insertRows)
open Ext (Crates Handler)
open Ingest (Batch Genuine Routed kitOf)
open Kits (Act Delivered)
open KitNetwork (completed serverSide goSetup newServer)
open Runs (Reaches)
open SubscriberWs (requested)

structure Setup where
  ingest : Ingest.Setup
  kit : KitNetwork.Setup

/-- `begun`: the fan-outs whose batches have been written to the log, in this order, by their
places among all fan-outs. -/
structure State (u : Setup) where
  ingest : Ingest.State
  client : KitNetwork.State u.kit.process.Resume
  begun : List Nat

/-- `append`: the append of one fan-out gets the lock of the writer. -/
inductive Action
  | ingest (a : Ingest.Action)
  | append (i : Nat) (mint : Nat → Uuid) (tsMs : Nat)
  | client (a : KitNetwork.Action)

variable {u : Setup} {s t s₀ : State u}

/-- The events of a fan-out. -/
def State.batch (s : State u) (i : Nat) : List Event := ((s.ingest.fanned[i]?).map (·.events)).getD []

/-- An append, or a stamp without the log. -/
def commits : KitNetwork.Action → Bool
  | .server (.plane (.log (.commitRows _ _ _))) | .server (.plane (.stampInMemory _ _ _)) => true
  | _ => false

def appendOf (s : State u) (i : Nat) (mint : Nat → Uuid) (tsMs : Nat) : KitNetwork.Action :=
  .server (.plane (.log (.commitRows mint (s.batch i) tsMs)))

/-- Every batch is appended once at most; an empty one is not. -/
def step (u : Setup) (s : State u) : Action → Option (State u)
  | .ingest a => (Ingest.step u.ingest s.ingest a).map fun t => { s with ingest := t }
  | .append i mint tsMs =>
    if i ∈ s.begun then none
    else (KitNetwork.step u.kit s.client (appendOf s i mint tsMs)).map fun t =>
      { s with client := t, begun := s.begun ++ [i] }
  | .client a =>
    if commits a then none
    else (KitNetwork.step u.kit s.client a).map fun t => { s with client := t }

/-- One server lifetime without prunes, pushes in order: as for one kit alone. -/
def Allowed (u : Setup) (s : State u) : Action → Prop
  | .ingest _ => True
  | .append i mint tsMs => KitNetwork.Allowed u.kit s.client (appendOf s i mint tsMs)
  | .client a => KitNetwork.Allowed u.kit s.client a

def Starts (u : Setup) (s : State u) : Prop :=
  Ingest.Starts s.ingest ∧ KitNetwork.Starts u.kit s.client ∧ s.begun = []

/-! ## What a run has done -/

/-- An event by its fan-out and its place in the batch. -/
abbrev Place := Nat × Nat

/-- The events in the order of their sequence numbers. -/
def State.places (s : State u) : List Place :=
  s.begun.flatMap fun i => (List.range (s.batch i).length).map fun j => (i, j)

def State.eventAt (s : State u) (place : Place) : Option Event := (s.batch place.1)[place.2]?

/-- The webhook an event comes from: the event is its body, and it knew the secret of the
extension that published it. -/
def FromWebhook (u : Setup) (crates : Crates) (s : State u) (handler : Handler) (b : Batch)
    (payloadB64 : String) : Prop :=
  ∃ n q l config secret, b.request = some n ∧ s.ingest.fannedFor n = [b] ∧
    s.ingest.requests.get? n = some q ∧ s.ingest.links.get? b.generation = some l ∧
    Routed s.ingest q.http b.generation ∧ config ∈ s.ingest.configs ∧
    config.secrets.get? l.handle.id = some secret ∧
    Genuine u.ingest.http crates handler q.http secret ∧
    crates.b64Decode payloadB64 = some q.http.body

/-- `calls`: what a handler is called with, of what came after the number `head`, is an event of
a fan-out, of an extension of the repository the body of a genuine webhook. `once`: no event of
a fan-out has two numbers, and no number was handled to the end twice. `complete`: up to the
stored cursor all were that the kit has asked for. -/
structure Delivers (u : Setup) (crates : Crates) (head : Nat) (s : State u) : Prop where
  calls : ∀ before ev after, s.client.history = before ++ .call (.onEvent ev) :: after →
    (head : Int) < ev.seq →
    ∃ k i j b e, ev.seq = ((head + 1 + k : Nat) : Int) ∧ s.places[k]? = some (i, j) ∧
      s.ingest.fanned[i]? = some b ∧ b.events[j]? = some e ∧ ev.channel = e.channel ∧
      ev.payloadB64 = e.payloadB64 ∧
      ∀ handler, u.ingest.programs b.generation = .kit (kitOf crates handler) →
        FromWebhook u crates s handler b ev.payloadB64
  once : s.places.Nodup ∧ (completed s.client.history).Pairwise fun a b => a.seq < b.seq
  complete : ∀ k place e, s.places[k]? = some place → s.eventAt place = some e →
    u.kit.cursor < head + 1 + k →
    ((head + 1 + k : Nat) : Int) ≤ KitNetwork.stored u.kit.cursor s.client.history →
    anyMatches (requested u.kit.net.patterns) e.channel = true →
    ∃ ev ∈ completed s.client.history, ev.seq = ((head + 1 + k : Nat) : Int) ∧
      ev.channel = e.channel ∧ ev.payloadB64 = e.payloadB64

/-! ## The parts of a run -/

/-- A run is a run of either part. -/
theorem run_parts (starts : Starts u s₀) (run : Reaches (· = s₀) (step u) (Allowed u) s) :
    Reaches Ingest.Starts (Ingest.step u.ingest) (fun _ _ => True) s.ingest ∧
      Reaches (KitNetwork.Starts u.kit) (KitNetwork.step u.kit) (KitNetwork.Allowed u.kit)
        s.client := by
  induction run with
  | start eq =>
    subst eq
    exact ⟨.start starts.1, .start starts.2.1⟩
  | next a _ allowed hs ih =>
    obtain ⟨ingest, client⟩ := ih
    cases a with
    | ingest a =>
      obtain ⟨t, ht, rfl⟩ := Option.map_eq_some_iff.mp hs
      exact ⟨.next a ingest trivial ht, client⟩
    | append i mint tsMs =>
      simp only [step] at hs
      split at hs
      · cases hs
      · obtain ⟨t, ht, rfl⟩ := Option.map_eq_some_iff.mp hs
        exact ⟨ingest, .next (appendOf _ i mint tsMs) client allowed ht⟩
    | client a =>
      simp only [step] at hs
      split at hs
      · cases hs
      · obtain ⟨t, ht, rfl⟩ := Option.map_eq_some_iff.mp hs
        exact ⟨ingest, .next a client allowed ht⟩

/-! ## The client's side of a step -/

/-- What the server makes of a frame leaves the log alone. -/
theorem handle_delivery (r : SubscriberRegistry) (conn : Nat) (msg : SubClientMsg) :
    (SubscriberWs.handleSubscriberText r conn msg).1.delivery = r.delivery := by
  have pushed : ∀ (r : SubscriberRegistry) (msg : SubServerMsg),
      (SubscriberWs.pushControl r conn msg).delivery = r.delivery :=
    fun r _ => (r.modify_same conn _).1
  cases msg with
  | subscribe patterns replay =>
    simp only [SubscriberWs.handleSubscriberText]
    split
    · exact pushed r _
    · rename_i next subscribed
      have same : next.delivery = r.delivery := by
        unfold SubscriberRegistry.subscribe at subscribed
        split at subscribed
        · cases subscribed
        · cases subscribed
          exact (r.modify_same conn _).1
      split
      · exact (pushed next _).trans same
      · split
        · exact (pushed _ _).trans ((pushed next _).trans same)
        · exact same
  | unsubscribe patterns => exact (pushed _ _).trans (r.modify_same conn _).1
  | ping => exact pushed r _

section

variable {v : KitNetwork.Setup} {c d : KitNetwork.State v.process.Resume} {shared : Shared}

/-- A step that is not the log's own leaves the log and its writer alone. -/
theorem client_quiet {a : KitNetwork.Action} (hs : KitNetwork.step v c a = some d)
    (other : ∀ la, a ≠ .server (.plane (.log la)))
    (durable : c.plane.registry.delivery = some shared) :
    d.plane.registry.delivery = c.plane.registry.delivery ∧ d.plane.writer = c.plane.writer := by
  cases a with
  | server a =>
    simp only [KitNetwork.step] at hs
    split at hs
    · rename_i side
      obtain ⟨n, hn, rfl⟩ := Option.map_eq_some_iff.mp hs
      have session : (c.net.session.bind fun x => Network.sessionStep v.net c.net x a) = some n →
          n.plane.registry.delivery = c.plane.registry.delivery ∧
            n.plane.writer = c.plane.writer := by
        intro hn
        obtain ⟨x, _, hn⟩ := Option.bind_eq_some_iff.mp hn
        have served := Network.sessionStep_served side hn
        exact ⟨served.delivery, served.writer⟩
      cases a with
      | plane a =>
        cases a with
        | log la => exact absurd rfl (other la)
        | stampInMemory mint tsMs events =>
          have refused : c.net.plane.step v.net.valueLen v.net.textLen
              (.stampInMemory mint tsMs events) = none := by
            simp only [Plane.step, KitNetwork.State.net, durable]
          simp only [Network.step, refused] at hn
          cases hn
        | push i =>
          obtain ⟨p, hp, rfl⟩ := Option.map_eq_some_iff.mp hn
          obtain ⟨rows, _, rfl⟩ := Plane.push_step hp
          exact ⟨rfl, rfl⟩
        | connection op =>
          simp only [Network.step] at hn
          split at hn
          · cases hn
          · cases hn
            exact ⟨(SubscriberRegistry.apply_same _ op).1, rfl⟩
      | loadFloor | loadHead | readRows | popFrame | sendFrame | close | dropConnection =>
        exact session hn
      | restart | connect | subscribe | receive | disconnect => cases side
    · cases hs
  | readUp =>
    simp only [KitNetwork.step] at hs
    split at hs
    · split at hs
      · cases hs
        simp only [KitNetwork.readUp]
        split
        · exact ⟨rfl, rfl⟩
        · exact ⟨handle_delivery _ _ _, rfl⟩
      · cases hs
    · cases hs
  | start =>
    simp only [KitNetwork.step] at hs
    split at hs
    · cases hs
    · cases hs
      exact ⟨rfl, rfl⟩
  | connect =>
    simp only [KitNetwork.step] at hs
    split at hs
    · obtain ⟨n, hn, rfl⟩ := Option.map_eq_some_iff.mp hs
      simp only [Network.step] at hn
      split at hn
      · cases hn
      · split at hn
        · cases hn
        · cases hn
          exact ⟨rfl, rfl⟩
    · cases hs
  | receive fails =>
    simp only [KitNetwork.step] at hs
    split at hs
    · split at hs
      · cases hs
        simp only [KitNetwork.receive]
        split
        · exact ⟨rfl, rfl⟩
        · split <;> exact ⟨rfl, rfl⟩
      · cases hs
    · cases hs
  | die done =>
    simp only [KitNetwork.step] at hs
    split at hs
    · split at hs <;> cases hs <;> exact ⟨rfl, rfl⟩
    · cases hs
      exact ⟨rfl, rfl⟩
    · cases hs
  | disconnect =>
    obtain ⟨_, _, rfl⟩ := Option.map_eq_some_iff.mp hs
    exact ⟨rfl, rfl⟩

/-- A step of the log, on the log. -/
theorem client_log {la : DeliveryLog.LogAction}
    (hs : KitNetwork.step v c (.server (.plane (.log la))) = some d)
    (durable : c.plane.registry.delivery = some shared) :
    ∃ live, Live.step v.net.valueLen ⟨shared, c.plane.writer⟩ la = some live ∧
      d.plane.registry.delivery = some live.shared ∧ d.plane.writer = live.writer := by
  simp only [KitNetwork.step, serverSide, if_true] at hs
  obtain ⟨n, hn, rfl⟩ := Option.map_eq_some_iff.mp hs
  obtain ⟨p, hp, rfl⟩ := Option.map_eq_some_iff.mp hn
  simp only [Plane.step, KitNetwork.State.net, durable] at hp
  obtain ⟨live, hl, rfl⟩ := Option.map_eq_some_iff.mp hp
  exact ⟨live, hl, rfl, rfl⟩

end

/-! ## The journal -/

/-- The rows written since the server opened its log at `shared₀` are the batches begun, in their
order, numbered from its head. -/
structure Journal (shared₀ : Shared) (s : State u) (shared : Shared) (rows : List StampedEvent)
    (low : Nat) : Prop where
  begun : ∀ i ∈ s.begun, i < s.ingest.fanned.length
  distinct : s.begun.Nodup
  durable : s.client.plane.registry.delivery = some shared
  entries : shared.db.entries =
    shared₀.db.entries ++ rows.map fun row => (row.seq, stored row)
  numbers : rows.map StampedEvent.seq = List.range' (shared₀.head + 1) rows.length
  events : rows.map Dispatch.eventOf = s.begun.flatMap s.batch
  valid : Live.Valid ⟨shared, s.client.plane.writer⟩ low (shared₀.head + rows.length)

variable {shared₀ shared : Shared} {rows : List StampedEvent} {low : Nat}

theorem starts_journal (starts : Starts u s) :
    ∃ shared₀ low, s.client.plane.registry.delivery = some shared₀ ∧
      (∀ e ∈ shared₀.db.entries, e.1 ≤ shared₀.head) ∧ Journal shared₀ s shared₀ [] low := by
  obtain ⟨_, ⟨shared, opened, _, eq⟩, begun⟩ := starts
  obtain ⟨low, last, valid⟩ := DeliveryLog.opened_valid opened
  have head : shared.head = last := valid.writer
  have durable : s.client.plane.registry.delivery = some shared := by
    rw [eq]
    rfl
  refine ⟨shared, low, durable, fun e mem => ?_, ?_, ?_, durable, ?_, rfl, ?_, ?_⟩
  · have inside := (valid.spans e.1).mp ⟨e.2, (shared.db.get?_eq_some_iff e.1 e.2).mpr mem⟩
    omega
  · rw [begun]
    exact fun _ mem => absurd mem List.not_mem_nil
  · rw [begun]
    exact .nil
  · rw [List.map_nil, List.append_nil]
  · rw [begun]
    rfl
  · rw [List.length_nil, Nat.add_zero, head, eq]
    exact valid

/-- Batches do not change as more fan-outs are made. -/
theorem batch_next {a : Ingest.Action} {i : Nat} {t : Ingest.State}
    (hs : Ingest.step u.ingest s.ingest a = some t) (old : i < s.ingest.fanned.length) :
    State.batch { s with ingest := t } i = s.batch i := by
  obtain ⟨more, eq⟩ := Ingest.step_fanned hs
  simp only [State.batch, ← eq, List.getElem?_append_left old]

theorem ingest_journal {a : Ingest.Action} {n : Ingest.State}
    (journal : Journal shared₀ s shared rows low)
    (hs : Ingest.step u.ingest s.ingest a = some n) :
    Journal shared₀ { s with ingest := n } shared rows low := by
  obtain ⟨begun, distinct, durable, entries, numbers, events, valid⟩ := journal
  have longer := (Ingest.step_fanned hs).length_le
  refine ⟨fun i mem => (begun i mem).trans_le longer, distinct, durable, entries, numbers, ?_, valid⟩
  rw [events]
  apply List.flatMap_congr
  intro i mem
  exact (batch_next hs (begun i mem)).symm

/-- The rows of an append go to the end of the journal. -/
theorem append_journal {i : Nat} {mint : Nat → Uuid} {tsMs : Nat}
    {n : KitNetwork.State u.kit.process.Resume} (journal : Journal shared₀ s shared rows low)
    (fresh : i ∉ s.begun) (hs : KitNetwork.step u.kit s.client (appendOf s i mint tsMs) = some n) :
    ∃ shared' more, Journal shared₀ { s with client := n, begun := s.begun ++ [i] } shared'
      (rows ++ more) low := by
  obtain ⟨begun, distinct, durable, entries, numbers, events, valid⟩ := journal
  obtain ⟨live, hl, durable', writer'⟩ := client_log hs durable
  have stepped := Live.stepped hl
  generalize isWriter : s.client.plane.writer = writer at stepped valid
  cases stepped with
  | commitRows _ _ _ _ nonempty =>
    have head : shared.head = shared₀.head + rows.length := valid.writer
    have length := DeliveryLog.stampRows_length shared.head tsMs mint (s.batch i)
    refine ⟨_, stampRows shared.head tsMs mint (s.batch i), ?_, ?_, durable', ?_, ?_, ?_, ?_⟩
    · intro j mem
      obtain mem | mem := List.mem_append.mp mem
      · exact begun j mem
      · rw [List.mem_singleton.mp mem]
        by_contra far
        apply nonempty
        simp only [State.batch, List.getElem?_eq_none (not_lt.mp far), Option.map_none,
          Option.getD_none]
    · exact List.nodup_append.mpr ⟨distinct, List.nodup_singleton i, fun j mem k last => by
        rw [List.mem_singleton.mp last]
        rintro rfl
        exact fresh mem⟩
    · have above : ∀ e ∈ shared.db.entries, ∀ row ∈ stampRows shared.head tsMs mint (s.batch i),
          e.1 < row.seq := by
        intro e mem row new
        have inside := (valid.spans e.1).mp
          ⟨e.2, (shared.db.get?_eq_some_iff e.1 e.2).mpr mem⟩
        have bounds := DeliveryLog.stampRows_bounds new
        omega
      have inserted := DeliveryLog.insertRows_entries _
        (DeliveryLog.stampRows_ascending shared.head tsMs mint (s.batch i)) above
      change (insertRows shared.db _).entries = _
      rw [inserted, entries, List.map_append, List.append_assoc]
    · have shift : shared₀.head + rows.length + 1 = shared₀.head + 1 + rows.length := by omega
      rw [List.map_append, numbers, DeliveryLog.stampRows_seq, List.length_append, length, head,
        shift, List.range'_append_1]
    · rw [List.map_append, events, Dispatch.stampRows_events, List.flatMap_append,
        List.flatMap_singleton]
      rfl
    · have next := DeliveryLog.commitRows_valid valid mint tsMs nonempty
      rw [List.length_append, length, ← Nat.add_assoc, writer']
      exact next

/-- No other step of the client's side writes a row. -/
theorem client_journal {a : KitNetwork.Action} {n : KitNetwork.State u.kit.process.Resume}
    (journal : Journal shared₀ s shared rows low) (quiet : ¬ commits a = true)
    (allowed : KitNetwork.Allowed u.kit s.client a)
    (hs : KitNetwork.step u.kit s.client a = some n) :
    ∃ shared', Journal shared₀ { s with client := n } shared' rows low := by
  obtain ⟨begun, distinct, durable, entries, numbers, events, valid⟩ := journal
  by_cases isLog : ∃ la, a = .server (.plane (.log la))
  · obtain ⟨la, rfl⟩ := isLog
    obtain ⟨live, hl, durable', writer'⟩ := client_log hs durable
    have stepped := Live.stepped hl
    generalize isWriter : s.client.plane.writer = writer at stepped valid
    cases stepped with
    | commitRows => exact absurd rfl quiet
    | commitPrune => exact absurd allowed.1 id
    | storeHead =>
      exact ⟨_, begun, distinct, durable', entries, numbers, events,
        by rw [writer']; exact DeliveryLog.storeHead_valid valid⟩
    | raiseFloor =>
      exact ⟨_, begun, distinct, durable',
        by simpa [Shared.addRetained] using entries, numbers, events,
        by rw [writer']; exact DeliveryLog.raiseFloor_valid valid⟩
    | storePruned =>
      exact ⟨_, begun, distinct, durable', entries, numbers, events,
        by rw [writer']; exact DeliveryLog.storePruned_valid valid⟩
  · obtain ⟨same, writer⟩ := client_quiet hs (fun la eq => isLog ⟨la, eq⟩) durable
    exact ⟨shared, begun, distinct, same.trans durable, entries, numbers, events,
      by rw [writer]; exact valid⟩

theorem run_journal (starts : Starts u s₀) (run : Reaches (· = s₀) (step u) (Allowed u) s) :
    ∃ shared₀, s₀.client.plane.registry.delivery = some shared₀ ∧
      (∀ e ∈ shared₀.db.entries, e.1 ≤ shared₀.head) ∧
      ∃ shared rows low, Journal shared₀ s shared rows low := by
  obtain ⟨shared₀, low, durable, old, first⟩ := starts_journal starts
  refine ⟨shared₀, durable, old, ?_⟩
  induction run with
  | start eq =>
    subst eq
    exact ⟨shared₀, [], low, first⟩
  | next a _ allowed hs ih =>
    obtain ⟨shared, rows, low, journal⟩ := ih
    cases a with
    | ingest a =>
      obtain ⟨n, hn, rfl⟩ := Option.map_eq_some_iff.mp hs
      exact ⟨shared, rows, low, ingest_journal journal hn⟩
    | append i mint tsMs =>
      simp only [step] at hs
      split at hs
      · cases hs
      · rename_i fresh
        obtain ⟨n, hn, rfl⟩ := Option.map_eq_some_iff.mp hs
        obtain ⟨shared', more, journal'⟩ := append_journal journal fresh hn
        exact ⟨shared', rows ++ more, low, journal'⟩
    | client a =>
      simp only [step] at hs
      split at hs
      · cases hs
      · rename_i quiet
        obtain ⟨n, hn, rfl⟩ := Option.map_eq_some_iff.mp hs
        obtain ⟨shared', journal'⟩ := client_journal journal quiet allowed hn
        exact ⟨shared', rows, low, journal'⟩

/-! ## Places -/

theorem places_events (s : State u) :
    s.places.map s.eventAt = (s.begun.flatMap s.batch).map some := by
  have one : ∀ i, ((List.range (s.batch i).length).map fun j => (i, j)).map s.eventAt =
      (s.batch i).map some := by
    intro i
    apply List.ext_getElem
    · simp
    · intro j short _
      have bound : j < (s.batch i).length := by simpa using short
      simp [State.eventAt, bound]
  simp only [State.places, List.map_flatMap, one]

theorem places_nodup (distinct : s.begun.Nodup) : s.places.Nodup := by
  rw [State.places, List.nodup_flatMap]
  constructor
  · intro i _
    exact List.Nodup.map (fun j k same => (Prod.mk.inj same).2) List.nodup_range
  · apply distinct.imp
    intro i j apart place one two
    obtain ⟨_, _, rfl⟩ := List.mem_map.mp one
    obtain ⟨_, _, same⟩ := List.mem_map.mp two
    exact apart (Prod.mk.inj same).1.symm

theorem Journal.number (journal : Journal shared₀ s shared rows low) {k : Nat} {row : StampedEvent}
    (isRow : rows[k]? = some row) : row.seq = shared₀.head + 1 + k := by
  have number := congrArg (·[k]?) journal.numbers
  have short := (List.getElem?_eq_some_iff.mp isRow).1
  simp only [List.getElem?_map, isRow, Option.map_some, List.getElem?_range' short,
    Option.some.injEq, Nat.one_mul] at number
  exact number

/-- The row of a place, and the place of a row. -/
theorem Journal.at_place (journal : Journal shared₀ s shared rows low) {k : Nat} {e : Event} :
    (∃ place, s.places[k]? = some place ∧ s.eventAt place = some e) ↔
      ∃ row, rows[k]? = some row ∧ Dispatch.eventOf row = e ∧ row.seq = shared₀.head + 1 + k := by
  have same : (s.places.map s.eventAt)[k]? = ((rows.map Dispatch.eventOf).map some)[k]? := by
    rw [places_events, journal.events]
  rw [List.getElem?_map, List.getElem?_map, List.getElem?_map] at same
  constructor
  · rintro ⟨place, isPlace, isEvent⟩
    rw [isPlace, Option.map_some, isEvent] at same
    cases isRow : rows[k]? with
    | none =>
      rw [isRow] at same
      cases same
    | some row =>
      rw [isRow] at same
      simp only [Option.map_some, Option.some.injEq] at same
      exact ⟨row, rfl, same.symm, journal.number isRow⟩
  · rintro ⟨row, isRow, rfl, -⟩
    rw [isRow] at same
    obtain ⟨place, isPlace, isEvent⟩ := Option.map_eq_some_iff.mp same
    exact ⟨place, isPlace, isEvent⟩

/-- What is committed above the head is a row of the journal. -/
theorem Journal.row (journal : Journal shared₀ s shared rows low)
    (old : ∀ e ∈ shared₀.db.entries, e.1 ≤ shared₀.head) {row : StampedEvent}
    (committed : s.client.plane.Committed row) (above : shared₀.head < row.seq) :
    ∃ k : Nat, rows[k]? = some row := by
  obtain ⟨shared', durable, found⟩ := committed
  rw [journal.durable] at durable
  cases durable
  have mem := (shared.db.get?_eq_some_iff _ _).mp found
  rw [journal.entries] at mem
  obtain before | mem := List.mem_append.mp mem
  · have bound : row.seq ≤ shared₀.head := old _ before
    omega
  · obtain ⟨other, inside, eq⟩ := List.mem_map.mp mem
    obtain ⟨seq, body⟩ := Prod.mk.inj eq
    have same : other = row := by
      rw [← DeliveryLog.stamp_stored other, ← DeliveryLog.stamp_stored row, body, seq]
    rw [← same]
    exact List.mem_iff_getElem?.mp inside

theorem Journal.committed (journal : Journal shared₀ s shared rows low) {row : StampedEvent}
    (mem : row ∈ rows) : s.client.plane.Committed row := by
  refine ⟨shared, journal.durable, (shared.db.get?_eq_some_iff _ _).mpr ?_⟩
  rw [journal.entries]
  exact List.mem_append_right _ (List.mem_map_of_mem mem)

/-! ## From the webhook to the handler -/

/-- Over every order of HTTP requests, children, appends, connections and processes of a kit that
die and start again: the handler of a kit is called with events of fan-outs, which for the
extensions of the repository are the bodies of genuine webhooks, handles each to the end once at
most, and has handled all it asked for up to its stored cursor. -/
theorem webhooks_reach_handlers (u : Setup) (crates : Crates) (lawful : crates.Lawful)
    (base64 : u.ingest.b64Encode = crates.b64Encode)
    (reads : ∀ j : Json, j.Fits → u.ingest.read j.render = some j) (correct : u.kit.Correct)
    (s₀ s : State u) (starts : Starts u s₀) (run : Reaches (· = s₀) (step u) (Allowed u) s) :
    Delivers u crates s₀.client.plane.head s := by
  obtain ⟨ingest, client⟩ := run_parts starts run
  have valid : Ingest.Valid u.ingest s.ingest :=
    ingest.invariant (Ingest.Valid u.ingest) (fun _ starts => Ingest.starts_valid starts)
      fun _ _ _ _ valid _ hs => Ingest.step_valid valid hs
  have handled : KitNetwork.HandledOnce u.kit s.client := by
    obtain ⟨H, kit⟩ := KitNetwork.kit_lawful correct.library u.kit.capacity u.kit.kit
    have inv : KitNetwork.Inv H s.client :=
      client.invariant _ (fun _ => KitNetwork.starts_inv correct)
        fun _ _ _ _ inv allowed hs => KitNetwork.step_inv kit correct inv allowed hs
    exact inv.handledOnce
  obtain ⟨shared₀, durable, old, shared, rows, low, journal⟩ := run_journal starts run
  have head : s₀.client.plane.head = shared₀.head := by
    rw [Plane.head, durable]
    rfl
  rw [head]
  constructor
  · intro before ev after history above
    obtain ⟨-, row, committed, rfl⟩ := handled.calls before ev after history
    obtain ⟨k, isRow⟩ := journal.row old committed (Int.ofNat_lt.mp above)
    have number := journal.number isRow
    obtain ⟨⟨i, j⟩, isPlace, isEvent⟩ :=
      journal.at_place.mpr ⟨row, isRow, rfl, number⟩
    have isBatch : ∃ b, s.ingest.fanned[i]? = some b ∧ b.events[j]? = some (Dispatch.eventOf row) := by
      simp only [State.eventAt, State.batch] at isEvent
      cases found : s.ingest.fanned[i]? with
      | none =>
        rw [found] at isEvent
        cases isEvent
      | some b =>
        rw [found] at isEvent
        exact ⟨b, rfl, isEvent⟩
    obtain ⟨b, isBatch, inside⟩ := isBatch
    refine ⟨k, i, j, b, Dispatch.eventOf row, congrArg Int.ofNat number, isPlace, isBatch, inside,
      rfl, rfl, fun handler runs => ?_⟩
    have emits : b.events ≠ [] := by
      intro none
      rw [none] at inside
      cases inside
    obtain ⟨n, q, l, config, secret, isFor, once, found, link, routed, inForce, isSecret, genuine,
      payload⟩ := valid.genuine lawful base64 reads (List.mem_of_getElem? isBatch) runs emits
    exact ⟨n, q, l, config, secret, isFor, once, found, link, routed, inForce, isSecret, genuine,
      payload _ (List.mem_of_getElem? inside)⟩
  · exact ⟨places_nodup journal.distinct, handled.once⟩
  · intro k place e isPlace isEvent above below wanted
    obtain ⟨row, isRow, rfl, number⟩ := journal.at_place.mp ⟨place, isPlace, isEvent⟩
    have committed := journal.committed (List.mem_of_getElem? isRow)
    rw [← number] at above below ⊢
    exact ⟨_, handled.complete row committed above below wanted, rfl, rfl, rfl⟩

instance (u : Setup) (s : State u) (a : Action) : Decidable (Allowed u s a) :=
  match a with
  | .ingest _ => isTrue trivial
  | .append i mint tsMs =>
    inferInstanceAs (Decidable (KitNetwork.Allowed u.kit s.client (appendOf s i mint tsMs)))
  | .client a => inferInstanceAs (Decidable (KitNetwork.Allowed u.kit s.client a))

def signedToGo : Setup := ⟨Ingest.signing, KitNetwork.goSetup⟩

def fresh : State signedToGo := ⟨Ingest.keyedStart, KitNetwork.newServer, []⟩

/-- A process of the Go kit connects and subscribes; a signed webhook comes in and its event goes
all the way. -/
def oneWebhook : List Action :=
  let subscribes : List KitNetwork.Action := [.start, .connect, .receive false, .readUp,
    .server .loadFloor, .server .loadHead, .server .readRows, .receive false, .receive false]
  let delivers : List KitNetwork.Action := [.server (.plane (.log .storeHead)),
    .server (.plane (.log .raiseFloor)), .server (.plane (.push 0)), .server .popFrame,
    .server .sendFrame, .receive false]
  subscribes.map .client ++ Ingest.oneSignedPost.map .ingest ++ [.append 0 (fun _ => 7) 0] ++
    delivers.map .client

theorem webhooks_reach_handlers_one :
    goSetup.Correct ∧ Starts signedToGo fresh ∧
      ∃ s, Reaches (· = fresh) (step signedToGo) (Allowed signedToGo) s ∧
        (completed s.client.history).map (·.payloadB64) = [Ingest.hiEvent.payloadB64] ∧
        Delivers signedToGo Ext.asciiCrates 0 s := by
  have correct : goSetup.Correct := ⟨Json.read_render, Json.read_render, by decide⟩
  have starts : Starts signedToGo fresh :=
    ⟨⟨rfl, rfl, rfl, rfl, rfl⟩, KitNetwork.newServer_starts, rfl⟩
  have ran : (Runs.exec (Runs.guarded (Allowed signedToGo) (step signedToGo)) fresh oneWebhook).map
      (fun s => (completed s.client.history).map (·.payloadB64)) =
        some [Ingest.hiEvent.payloadB64] := by
    decide +kernel
  obtain ⟨s, hs, seen⟩ := Option.map_eq_some_iff.mp ran
  have run : Reaches (· = fresh) (step signedToGo) (Allowed signedToGo) s :=
    Runs.reaches_of_exec oneWebhook (.start rfl) hs
  exact ⟨correct, starts, s, run, seen, webhooks_reach_handlers signedToGo Ext.asciiCrates
    Ext.asciiCrates_lawful rfl Json.read_render correct fresh s starts run⟩

end Whdr.EndToEnd
