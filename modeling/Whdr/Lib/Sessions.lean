import Mathlib.Data.List.Basic

/-! A client that reads the messages of one connection after the other: it waits for the
frame that opens a connection, handles the frames that follow, and connects again unless
a connection ended in a fatal error. Two clients make the same run when their handling of
every message is a simulation. -/
namespace Sessions

universe u v w

/-- What one message is to the client: a frame, nothing it knows, or the end of the
connection. -/
inductive Received (F : Type)
  | frame (f : F)
  | skipped
  | broken

/-- How the client goes on after a frame. -/
inductive Flow (S : Type u) (E : Type)
  | next (s : S)
  | ends (s : S) (result : Except E Unit)

def Flow.state {S : Type u} {E : Type} : Flow S E → S
  | .next s | .ends s _ => s

structure Client (M : Type v) (S : Type u) where
  Frame : Type
  Error : Type
  recv : M → Received Frame
  opens : Frame → Bool
  connected : S → S
  dispatch : Frame → S → Flow S Error
  broken : Error
  closed : Error
  fatal : Error → Bool

namespace Client

variable {M : Type v} {N : Type w} {S T : Type u}

/-- The messages after the opening frame; all before it are skipped. -/
def await (c : Client M S) : List M → Except c.Error (List M)
  | [] => .error c.closed
  | m :: rest =>
    match c.recv m with
    | .frame f => if c.opens f then .ok rest else c.await rest
    | .skipped => c.await rest
    | .broken => .error c.broken

/-- The frames of an open connection, up to its end, with the messages not read. -/
def serve (c : Client M S) : List M → S → S × Except c.Error Unit × List M
  | [], s => (s, .error c.closed, [])
  | m :: rest, s =>
    match c.recv m with
    | .frame f =>
      match c.dispatch f s with
      | .next s => c.serve rest s
      | .ends s result => (s, result, rest)
    | .skipped => c.serve rest s
    | .broken => (s, .error c.broken, rest)

def runSession (c : Client M S) (messages : List M) (s : S) : S × Except c.Error Unit × List M :=
  match c.await messages with
  | .error e => (s, .error e, [])
  | .ok rest => c.serve rest (c.connected s)

/-- The run loop stops on a fatal error and goes on after anything else. -/
def stops (c : Client M S) : Except c.Error Unit → Bool
  | .ok () => false
  | .error e => c.fatal e

/-- The connections in order. If the run stops, then with so many of them and so many
messages of its last one not read. -/
def run (c : Client M S) : List (List M) → S → S × Option (Nat × Nat)
  | [], s => (s, none)
  | messages :: more, s =>
    let (s, result, left) := c.runSession messages s
    if c.stops result then (s, some (more.length, left.length)) else c.run more s

variable {c : Client M S} {w m : M} {f g : c.Frame} {s t : S}

/-- A connection with one message after the opening frame. -/
theorem run_next (opened : c.recv w = .frame f) (opens : c.opens f = true)
    (got : c.recv m = .frame g) (next : c.dispatch g (c.connected s) = .next t)
    (transient : c.fatal c.closed = false) : c.run [[w, m]] s = (t, none) := by
  simp [run, runSession, await, serve, stops, opened, opens, got, next, transient]

theorem run_broken (opened : c.recv w = .frame f) (opens : c.opens f = true)
    (lost : c.recv m = .broken) (transient : c.fatal c.broken = false) :
    c.run [[w, m]] s = (c.connected s, none) := by
  simp [run, runSession, await, serve, stops, opened, opens, lost, transient]

/-! ## Invariants -/

section
variable {P : S → Prop}

theorem serve_invariant (dispatch : ∀ f s, P s → P (c.dispatch f s).state) (messages : List M)
    (start : P s) : P (c.serve messages s).1 := by
  induction messages generalizing s with
  | nil => exact start
  | cons m rest ih =>
    unfold serve
    split
    · rename_i f _
      have kept := dispatch f s start
      split
      · rename_i t next
        rw [next] at kept
        exact ih kept
      · rename_i t result ends
        rw [ends] at kept
        exact kept
    · exact ih start
    · exact start

/-- What connecting and every frame keep, a run keeps. -/
theorem run_invariant (connected : ∀ s, P s → P (c.connected s))
    (dispatch : ∀ f s, P s → P (c.dispatch f s).state) (sessions : List (List M)) (start : P s) :
    P (c.run sessions s).1 := by
  induction sessions generalizing s with
  | nil => exact start
  | cons messages more ih =>
    have kept : P (c.runSession messages s).1 := by
      unfold runSession
      split
      · exact start
      · exact serve_invariant dispatch _ (connected s start)
    unfold run
    dsimp only
    split
    · exact kept
    · exact ih kept

end

end Client

/-! ## Simulation -/

variable {M : Type v} {N : Type w} {S T : Type u} {a : Client M S} {b : Client N T}
  {enc : N → M} {ok : N → Prop} {R : S → T → Prop}

/-- Both go on in related states, or both end in them, and one stops if the other does. -/
def Follows (a : Client M S) (b : Client N T) (R : S → T → Prop) :
    Flow S a.Error → Flow T b.Error → Prop
  | .next s, .next t => R s t
  | .ends s p, .ends t q => R s t ∧ a.stops p = b.stops q
  | _, _ => False

structure Simulates (a : Client M S) (b : Client N T) (enc : N → M) (ok : N → Prop)
    (R : S → T → Prop) : Prop where
  message : ∀ n, ok n → ∃ f g, a.recv (enc n) = .frame f ∧ b.recv n = .frame g ∧
    a.opens f = b.opens g ∧ ∀ s t, R s t → Follows a b R (a.dispatch f s) (b.dispatch g t)
  connected : ∀ s t, R s t → R (a.connected s) (b.connected t)
  closed : a.fatal a.closed = b.fatal b.closed

theorem await_agrees (sim : Simulates a b enc ok R) {messages : List N}
    (fine : ∀ n ∈ messages, ok n) :
    (∃ rest, a.await (messages.map enc) = .ok (rest.map enc) ∧ b.await messages = .ok rest ∧
      ∀ n ∈ rest, ok n) ∨
    (a.await (messages.map enc) = .error a.closed ∧ b.await messages = .error b.closed) := by
  induction messages with
  | nil => exact .inr ⟨rfl, rfl⟩
  | cons n rest ih =>
    obtain ⟨head, tail⟩ := List.forall_mem_cons.mp fine
    obtain ⟨f, g, recvA, recvB, opens, -⟩ := sim.message n head
    simp only [List.map_cons, Client.await, recvA, recvB]
    cases isOpen : b.opens g with
    | true =>
      rw [isOpen] at opens
      exact .inl ⟨rest, by simp [opens], by simp, tail⟩
    | false =>
      rw [isOpen] at opens
      simpa only [opens, Bool.false_eq_true, if_false] using ih tail

/-- The two clients leave a connection in related states, with the same messages left. -/
structure Leaves (a : Client M S) (b : Client N T) (R : S → T → Prop)
    (p : S × Except a.Error Unit × List M) (q : T × Except b.Error Unit × List N) : Prop where
  state : R p.1 q.1
  stops : a.stops p.2.1 = b.stops q.2.1
  left : p.2.2.length = q.2.2.length

theorem serve_agrees (sim : Simulates a b enc ok R) {messages : List N}
    (fine : ∀ n ∈ messages, ok n) {s : S} {t : T} (related : R s t) :
    Leaves a b R (a.serve (messages.map enc) s) (b.serve messages t) := by
  induction messages generalizing s t with
  | nil => exact ⟨related, sim.closed, rfl⟩
  | cons n rest ih =>
    obtain ⟨head, tail⟩ := List.forall_mem_cons.mp fine
    obtain ⟨f, g, recvA, recvB, -, dispatch⟩ := sim.message n head
    have follows := dispatch s t related
    simp only [List.map_cons, Client.serve, recvA, recvB]
    cases flowA : a.dispatch f s with
    | next s =>
      cases flowB : b.dispatch g t with
      | next t =>
        rw [flowA, flowB] at follows
        exact ih tail follows
      | ends t q =>
        rw [flowA, flowB] at follows
        exact follows.elim
    | ends s p =>
      cases flowB : b.dispatch g t with
      | next t =>
        rw [flowA, flowB] at follows
        exact follows.elim
      | ends t q =>
        rw [flowA, flowB] at follows
        exact ⟨follows.1, follows.2, List.length_map _⟩

theorem runSession_agrees (sim : Simulates a b enc ok R) {messages : List N}
    (fine : ∀ n ∈ messages, ok n) {s : S} {t : T} (related : R s t) :
    Leaves a b R (a.runSession (messages.map enc) s) (b.runSession messages t) := by
  obtain ⟨rest, awaitA, awaitB, fineRest⟩ | ⟨awaitA, awaitB⟩ := await_agrees sim fine
  · simp only [Client.runSession, awaitA, awaitB]
    exact serve_agrees sim fineRest (sim.connected s t related)
  · simp only [Client.runSession, awaitA, awaitB]
    exact ⟨related, sim.closed, rfl⟩

/-- Clients in a simulation make the same run: they end in related states, and if one
stops then the other does at the same message. -/
theorem run_agrees (sim : Simulates a b enc ok R) {sessions : List (List N)}
    (fine : ∀ messages ∈ sessions, ∀ n ∈ messages, ok n) {s : S} {t : T} (related : R s t) :
    R (a.run (sessions.map (List.map enc)) s).1 (b.run sessions t).1 ∧
      (a.run (sessions.map (List.map enc)) s).2 = (b.run sessions t).2 := by
  induction sessions generalizing s t with
  | nil => exact ⟨related, rfl⟩
  | cons messages more ih =>
    obtain ⟨head, tail⟩ := List.forall_mem_cons.mp fine
    obtain ⟨state, stops, left⟩ := runSession_agrees sim head related
    simp only [List.map_cons, Client.run, stops, left, List.length_map]
    split
    · exact ⟨state, rfl⟩
    · exact ih tail state

end Sessions
