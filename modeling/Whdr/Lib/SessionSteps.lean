import Whdr.Lib.Sessions

/-! A connection read message by message, as a client does that may stop anywhere. -/
namespace Sessions

universe u v w

variable {M : Type v} {N : Type w} {S T : Type u}

namespace Client

/-- One message, with whether the opening frame is read: all before it are skipped. -/
def read (c : Client M S) (m : M) (p : Bool × S) : Flow (Bool × S) c.Error :=
  match c.recv m with
  | .frame f =>
    if p.1 then
      match c.dispatch f p.2 with
      | .next s => .next (true, s)
      | .ends s result => .ends (true, s) result
    else if c.opens f then .next (true, c.connected p.2)
    else .next p
  | .skipped => .next p
  | .broken => .ends p (.error c.broken)

def readAll (c : Client M S) : List M → Bool × S → S × Except c.Error Unit
  | [], p => (p.2, .error c.closed)
  | m :: rest, p =>
    match c.read m p with
    | .next p => c.readAll rest p
    | .ends p result => (p.2, result)

variable {c : Client M S}

theorem readAll_opened (messages : List M) (s : S) :
    c.readAll messages (true, s) = ((c.serve messages s).1, (c.serve messages s).2.1) := by
  induction messages generalizing s with
  | nil => rfl
  | cons m rest ih =>
    cases got : c.recv m with
    | skipped => simp only [readAll, read, got, serve, ih]
    | broken => simp only [readAll, read, got, serve]
    | frame f =>
      cases flow : c.dispatch f s with
      | next t => simp only [readAll, read, got, serve, flow, if_true, ih]
      | ends t result => simp only [readAll, read, got, serve, flow, if_true]

/-- Read one by one, the messages of a connection lead where its session does. -/
theorem readAll_runSession (messages : List M) (s : S) :
    c.readAll messages (false, s) =
      ((c.runSession messages s).1, (c.runSession messages s).2.1) := by
  induction messages generalizing s with
  | nil => rfl
  | cons m rest ih =>
    unfold runSession at ih
    cases got : c.recv m with
    | skipped => simp only [readAll, read, got, runSession, await, ih]
    | broken => simp only [readAll, read, got, runSession, await]
    | frame f =>
      cases opens : c.opens f with
      | false =>
        simp only [readAll, read, got, runSession, await, opens, Bool.false_eq_true, if_false, ih]
      | true =>
        simp only [readAll, read, got, runSession, await, opens, Bool.false_eq_true, if_false,
          if_true, readAll_opened]

end Client

/-! ## Simulation -/

variable {a : Client M S} {b : Client N T} {enc : N → M} {ok : N → Prop} {R : S → T → Prop}

/-- Both go on, opened or not, or both end. -/
def Reads (a : Client M S) (b : Client N T) (R : S → T → Prop) :
    Flow (Bool × S) a.Error → Flow (Bool × T) b.Error → Prop
  | .next p, .next q => p.1 = q.1 ∧ R p.2 q.2
  | .ends p x, .ends q y => R p.2 q.2 ∧ a.stops x = b.stops y
  | _, _ => False

/-- What a frame that both clients read is to them. -/
structure Matches (a : Client M S) (b : Client N T) (R : S → T → Prop) (m : M) (n : N) : Prop where
  message : ∃ f g, a.recv m = .frame f ∧ b.recv n = .frame g ∧ a.opens f = b.opens g ∧
    ∀ s t, R s t → Follows a b R (a.dispatch f s) (b.dispatch g t)
  connected : ∀ s t, R s t → R (a.connected s) (b.connected t)

theorem Matches.reads {m : M} {n : N} (same : Matches a b R m n) (opened : Bool) {s : S} {t : T}
    (related : R s t) : Reads a b R (a.read m (opened, s)) (b.read n (opened, t)) := by
  obtain ⟨f, g, recvA, recvB, opens, dispatch⟩ := same.message
  have follows := dispatch s t related
  simp only [Client.read, recvA, recvB, opens]
  cases opened with
  | false =>
    cases b.opens g with
    | false => exact ⟨rfl, related⟩
    | true => exact ⟨rfl, same.connected s t related⟩
  | true =>
    cases flowA : a.dispatch f s with
    | next s =>
      cases flowB : b.dispatch g t with
      | next t =>
        rw [flowA, flowB] at follows
        exact ⟨rfl, follows⟩
      | ends t q =>
        rw [flowA, flowB] at follows
        exact follows.elim
    | ends s p =>
      cases flowB : b.dispatch g t with
      | next t =>
        rw [flowA, flowB] at follows
        exact follows.elim
      | ends t q =>
        rw [flowA, flowB] at follows
        exact follows

theorem read_agrees (sim : Simulates a b enc ok R) {n : N} (fine : ok n) (opened : Bool) {s : S}
    {t : T} (related : R s t) :
    Reads a b R (a.read (enc n) (opened, s)) (b.read n (opened, t)) :=
  Matches.reads ⟨sim.message n fine, sim.connected⟩ opened related

/-! ## Messages that only one of the two is sent -/

variable {K : Type*}

/-- A client that makes nothing of some messages does as one that is not sent them: `enc` is
what the first is sent, `plain` what the second is sent, if anything. -/
structure Ignores (a : Client M S) (b : Client N T) (enc : K → M) (plain : K → Option N)
    (R : S → T → Prop) (k : K) : Prop where
  skips : plain k = none → a.recv (enc k) = .skipped
  reads : ∀ n, plain k = some n → Matches a b R (enc k) n

variable {plain : K → Option N} {send : K → M}

theorem readAll_ignores (closed : a.fatal a.closed = b.fatal b.closed) {messages : List K}
    (ignores : ∀ k ∈ messages, Ignores a b send plain R k) (opened : Bool) {s : S} {t : T}
    (related : R s t) :
    R (a.readAll (messages.map send) (opened, s)).1
        (b.readAll (messages.filterMap plain) (opened, t)).1 ∧
      a.stops (a.readAll (messages.map send) (opened, s)).2 =
        b.stops (b.readAll (messages.filterMap plain) (opened, t)).2 := by
  induction messages generalizing opened s t with
  | nil => exact ⟨related, closed⟩
  | cons k rest ih =>
    obtain ⟨head, tail⟩ := List.forall_mem_cons.mp ignores
    cases told : plain k with
    | none =>
      have skipped : a.read (send k) (opened, s) = .next (opened, s) := by
        simp only [Client.read, head.skips told]
      simp only [List.map_cons, Client.readAll, skipped, List.filterMap_cons_none told]
      exact ih tail opened related
    | some n =>
      have reads := (head.reads n told).reads opened related
      simp only [List.map_cons, Client.readAll, List.filterMap_cons_some told]
      cases readA : a.read (send k) (opened, s) with
      | next p =>
        cases readB : b.read n (opened, t) with
        | next q =>
          rw [readA, readB] at reads
          obtain ⟨isOpen, kept⟩ := reads
          have went := ih tail p.1 kept
          rw [show (p.1, q.2) = q from Prod.ext isOpen rfl] at went
          exact went
        | ends q y =>
          rw [readA, readB] at reads
          exact reads.elim
      | ends p x =>
        cases readB : b.read n (opened, t) with
        | next q =>
          rw [readA, readB] at reads
          exact reads.elim
        | ends q y =>
          rw [readA, readB] at reads
          exact reads

/-- The runs end in related states, and if one stops then the other does, with as many
connections left. -/
theorem run_ignores (closed : a.fatal a.closed = b.fatal b.closed) {sessions : List (List K)}
    (ignores : ∀ messages ∈ sessions, ∀ k ∈ messages, Ignores a b send plain R k) {s : S} {t : T}
    (related : R s t) :
    R (a.run (sessions.map (List.map send)) s).1
        (b.run (sessions.map (List.filterMap plain)) t).1 ∧
      (a.run (sessions.map (List.map send)) s).2.map Prod.fst =
        (b.run (sessions.map (List.filterMap plain)) t).2.map Prod.fst := by
  induction sessions generalizing s t with
  | nil => exact ⟨related, rfl⟩
  | cons messages more ih =>
    obtain ⟨head, tail⟩ := List.forall_mem_cons.mp ignores
    have session := readAll_ignores closed head false related
    rw [Client.readAll_runSession, Client.readAll_runSession] at session
    obtain ⟨state, stops⟩ := session
    simp only [List.map_cons, Client.run, stops, List.length_map]
    split
    · exact ⟨state, rfl⟩
    · exact ih tail state

end Sessions
