import Whdr.Ingest.Origins

/-! What is in the pipes of a child of the kit: a reservation that is still pending is about to be
sent, or its line has not been read back. -/
namespace Whdr.Ingest

open Whdr.Configuration (Config)
open Ndjson (decodeLine decodeLine_render)
open Wire (toJson uuidSize)

variable {setup : Setup} {s t : State} {n m : Nat} {q q' : Request} {g reqId : Uuid} {l l' : Link}

/-! ## Fan-outs -/

theorem sendResult_fanned (s : State) (g : Uuid) (l : Link) (n : Nat) (result : ExtResult) :
    (sendResult s g l n result).fanned = s.fanned := by
  unfold sendResult
  dsimp only
  split
  · split <;> rfl
  · rfl

theorem runLink_fanned {a : LinkAction} (hs : runLink setup s g l a = some t) :
    s.fanned <+: t.fanned := by
  cases a with
  | write =>
    simp only [runLink] at hs
    split at hs
    · cases hs
    · cases hs
      exact List.prefix_refl _
  | shutdown | print =>
    simp only [runLink] at hs
    split at hs
    · cases hs
      exact List.prefix_refl _
    · cases hs
  | readLine =>
    simp only [runLink] at hs
    split at hs
    · split at hs
      · cases hs
      · cases hs
        exact List.prefix_append _ _
    · cases hs
  | sendResult =>
    simp only [runLink] at hs
    split at hs
    · cases hs
    · cases hs
      exact (sendResult_fanned ..).symm ▸ List.prefix_refl _
  | clear =>
    cases hs
    exact List.prefix_refl _

/-- A fan-out is not taken back. -/
theorem step_fanned {a : Action} (hs : step setup s a = some t) : s.fanned <+: t.fanned := by
  cases a with
  | request n a =>
    obtain ⟨q, _, hs⟩ := Option.bind_eq_some_iff.mp hs
    cases advance_moves hs with
    | receive => exact List.prefix_append _ _
    | sendFails | removePending | cancelReserved =>
      exact release_fanned s q ▸ List.prefix_refl _
    | decline | forward | reserve | send | timeout | dead | respond | cancel =>
      exact List.prefix_refl _
  | link g a =>
    obtain ⟨l, _, hs⟩ := Option.bind_eq_some_iff.mp hs
    exact runLink_fanned hs
  | arrive n http =>
    simp only [step] at hs
    split at hs
    · cases hs
    · cases hs
      exact List.prefix_refl _
  | start handle =>
    simp only [step] at hs
    split at hs
    · cases hs
    · cases hs
      exact List.prefix_refl _
  | setTables | reload =>
    cases hs
    exact List.prefix_refl _

/-! ## What a child of the kit has read and written -/

section Serve

variable {read : Line → Option Json} {handle : SrvMsg → Ext.DispatchResult} {lines : List Line}

theorem serve_length_le (read : Line → Option Json) (handle : SrvMsg → Ext.DispatchResult)
    (lines : List Line) : (Ext.serve read handle lines).1.length ≤ lines.length := by
  induction lines with
  | nil => exact Nat.le_refl _
  | cons line rest ih =>
    simp only [Ext.serve, List.length_cons]
    split
    · exact Nat.zero_le _
    · omega
    · exact Nat.zero_le _
    · split
      · exact Nat.zero_le _
      · simp only [List.length_cons]
        omega

/-- Where every line is a message, the results stand where the requests do. -/
theorem serve_at (messages : ∀ line ∈ lines, ∃ msg : SrvMsg, decodeLine read line = .ok (some msg))
    {i : Nat} {written : ExtMsg} (at' : (Ext.serve read handle lines).1[i]? = some written) :
    ∃ line m reply events, lines[i]? = some line ∧
      decodeLine read line = .ok (some (SrvMsg.dispatch m)) ∧
      handle (.dispatch m) = .ok (reply, events) ∧ written = .result m.reqId reply events := by
  induction lines generalizing i with
  | nil => simp [Ext.serve] at at'
  | cons line rest ih =>
    obtain ⟨msg, decodes⟩ := messages line List.mem_cons_self
    simp only [Ext.serve, decodes] at at'
    cases msg with
    | shutdown => simp at at'
    | dispatch m =>
      cases answered : handle (.dispatch m) with
      | error stop => simp [answered] at at'
      | ok reply =>
        obtain ⟨http, events⟩ := reply
        simp only [answered] at at'
        cases i with
        | zero =>
          rw [List.getElem?_cons_zero, Option.some.injEq] at at'
          exact ⟨line, m, http, events, rfl, decodes, answered, at'.symm⟩
        | succ i =>
          rw [List.getElem?_cons_succ] at at'
          obtain ⟨other, found⟩ := ih (fun x mem => messages x (List.mem_cons_of_mem _ mem)) at'
          exact ⟨other, found⟩

/-- A child that answers every request has as many results to write as it was sent lines. -/
theorem serve_all (answers : ∀ line ∈ lines, ∃ m reply,
      decodeLine read line = .ok (some (SrvMsg.dispatch m)) ∧ handle (.dispatch m) = .ok reply) :
    (Ext.serve read handle lines).1.length = lines.length := by
  induction lines with
  | nil => rfl
  | cons line rest ih =>
    obtain ⟨m, reply, decodes, answered⟩ := answers line List.mem_cons_self
    obtain ⟨http, events⟩ := reply
    have later := ih fun x mem => answers x (List.mem_cons_of_mem _ mem)
    simp only [Ext.serve, decodes, answered, List.length_cons, later]

end Serve

/-- Every line to a child is a message. -/
theorem LinkValid.messages (valid : Valid setup s)
    (correct : ∀ j : Json, j.Fits → setup.read j.render = some j) (link : s.links.get? g = some l) :
    ∀ line ∈ l.stdin, ∃ msg : SrvMsg, decodeLine setup.read line = .ok (some msg) := by
  intro line mem
  obtain ⟨msg, rfl, sent⟩ := (valid.links g l link).stdin line mem
  refine ⟨msg, (decodeLine_render correct ?_).1⟩
  obtain rfl | ⟨n, q, reqId, found, ticket, config, _, rfl⟩ := sent
  · trivial
  · exact ((valid.requests n q found).routed g reqId ticket).2

theorem kit_printed {child : Kit} (valid : Valid setup s) (link : s.links.get? g = some l)
    (isKit : setup.programs g = .kit child) : l.stdout.length ≤ l.stdin.length := by
  have printed := ((valid.links g l link).stdout child isKit).length_le
  have bound := serve_length_le setup.read child.handle l.stdin
  rw [List.length_map] at printed
  omega

/-- The line that is read next is the result for the request on the line across from it. -/
theorem kit_next {child : Kit} {line : Line} {i : Nat} (valid : Valid setup s)
    (correct : ∀ j : Json, j.Fits → setup.read j.render = some j)
    (link : s.links.get? g = some l) (isKit : setup.programs g = .kit child)
    (at' : l.stdout[i]? = some line) :
    ∃ asked m reply events, l.stdin[i]? = some asked ∧
      decodeLine setup.read asked = .ok (some (SrvMsg.dispatch m)) ∧
      decodeLine setup.read line = .ok (some (ExtMsg.result m.reqId reply events)) := by
  have inside := (valid.links g l link).stdout child isKit
  have there : ((Ext.serve setup.read child.handle l.stdin).1.map fun msg =>
      (toJson msg).render)[i]? = some line := by
    obtain ⟨rest, eq⟩ := inside
    have short := (List.getElem?_eq_some_iff.mp at').1
    rw [← eq, List.getElem?_append_left short, at']
  rw [List.getElem?_map, Option.map_eq_some_iff] at there
  obtain ⟨written, at'', rfl⟩ := there
  obtain ⟨asked, m, reply, events, stdin, decodes, answered, rfl⟩ :=
    serve_at (LinkValid.messages valid correct link) at''
  refine ⟨asked, m, reply, events, stdin, decodes, (decodeLine_render correct ?_).1⟩
  -- the id came in on a line of the daemon
  obtain ⟨msg, rfl, sent⟩ := (valid.links g l link).stdin asked (List.mem_of_getElem? stdin)
  obtain rfl | ⟨n, q, reqId, found, ticket, config, _, rfl⟩ := sent
  · rw [(decodeLine_render correct (m := SrvMsg.shutdown) trivial).1] at decodes
    cases decodes
  · have small := ((valid.requests n q found).routed g reqId ticket).2
    rw [(decodeLine_render correct (m := SrvMsg.dispatch (dispatchMsg setup.http
      setup.b64Encode q.http reqId (config.secrets.get? l.handle.id))) small).1] at decodes
    cases decodes
    exact ⟨small, child.statusFits _ _ _ answered⟩

/-! ## Reservations on their way -/

/-- The request with this id is in the channel, or on a line whose result is still to be read. -/
def UnderWay (l : Link) (reqId : Uuid) : Prop :=
  ∃ m, m.reqId = reqId ∧ (SrvMsg.dispatch m ∈ l.queue ∨
    (toJson (SrvMsg.dispatch m)).render ∈ l.stdin.drop l.linesRead)

def Sending (s : State) (n : Nat) : Prop :=
  ∃ q msg, s.requests.get? n = some q ∧ q.stage = .sending msg

/-- What holds of the pipes of a child of the kit. -/
structure Flow (s : State) (l : Link) : Prop where
  room : 0 < l.capacity
  read : l.linesRead ≤ l.stdout.length
  pending : l.reading = true → ∀ reqId n, l.window.pending.get? reqId = some n →
    UnderWay l reqId ∨ Sending s n

def Flows (s : State) : Prop := ∀ g l, s.links.get? g = some l → Flow s l

theorem UnderWay.of_parts (under : UnderWay l reqId)
    (queue : ∀ m, SrvMsg.dispatch m ∈ l.queue → SrvMsg.dispatch m ∈ l'.queue)
    (stdin : ∀ line ∈ l.stdin.drop l.linesRead, line ∈ l'.stdin.drop l'.linesRead) :
    UnderWay l' reqId := by
  obtain ⟨m, id, queued | written⟩ := under
  · exact ⟨m, id, .inl (queue m queued)⟩
  · exact ⟨m, id, .inr (stdin _ written)⟩

/-- A link with no further entry, and the same pipes. -/
theorem Flow.of_same {k : Link} (flow : Flow s l) (capacity : k.capacity = l.capacity)
    (queue : k.queue = l.queue) (stdin : k.stdin = l.stdin) (stdout : k.stdout = l.stdout)
    (linesRead : k.linesRead = l.linesRead) (reading : k.reading = l.reading)
    (fewer : ∀ reqId n, k.window.pending.get? reqId = some n →
      l.window.pending.get? reqId = some n) : Flow s k where
  room := capacity ▸ flow.room
  read := by
    rw [linesRead, stdout]
    exact flow.read
  pending on reqId n entry := by
    obtain under | sending := flow.pending (reading ▸ on) reqId n (fewer reqId n entry)
    · exact .inl (under.of_parts (fun _ mem => queue ▸ mem) fun line mem => by rwa [stdin, linesRead])
    · exact .inr sending

theorem Sending.of_eq (sending : Sending s n) (requests : t.requests = s.requests) : Sending t n := by
  rwa [Sending, requests]

theorem Flow.of_eq (flow : Flow s l) (requests : t.requests = s.requests) : Flow t l where
  room := flow.room
  read := flow.read
  pending on reqId n entry :=
    (flow.pending on reqId n entry).imp id fun sending => sending.of_eq requests

theorem Flows.of_eq (flows : Flows s) (links : t.links = s.links)
    (requests : t.requests = s.requests) : Flows t := by
  intro g l link
  rw [links] at link
  exact (flows g l link).of_eq requests

theorem Flows.putLink {k : Link} (flows : Flows s) (next : Flow s k) : Flows (s.putLink g k) := by
  intro h other link
  rw [State.putLink, OrdMap.get?_insert] at link
  split at link
  · cases link
    exact next.of_eq rfl
  · exact (flows h other link).of_eq rfl

/-- A request that was not sending goes on. -/
theorem Flows.put {p : Request} (flows : Flows s) (found : s.requests.get? n = some q)
    (stays : ∀ msg, q.stage = .sending msg → p.stage = .sending msg) : Flows (s.put n p) := by
  intro g l link
  refine ⟨(flows g l link).room, (flows g l link).read, fun on reqId m entry => ?_⟩
  obtain under | ⟨other, msg, foundO, sending⟩ := (flows g l link).pending on reqId m entry
  · exact .inl under
  · by_cases same : m = n
    · subst same
      rw [found] at foundO
      cases foundO
      exact .inr ⟨p, msg, s.requests.get?_insert_self m p, stays msg sending⟩
    · exact .inr ⟨other, msg, (s.requests.get?_insert_ne p same).trans foundO, sending⟩

/-- A release only takes the entry of the ticket away. -/
theorem release_link (link : (release s q).links.get? g = some l) :
    ∃ old window, s.links.get? g = some old ∧ l = { old with window := window } ∧
      ∀ reqId m, window.pending.get? reqId = some m →
        old.window.pending.get? reqId = some m ∧ q.ticket ≠ some (g, reqId) := by
  unfold release at link
  split at link
  · rename_i noTicket
    exact ⟨l, l.window, link, rfl, fun reqId m entry => ⟨entry, by rw [noTicket]; rintro ⟨⟩⟩⟩
  · rename_i k id ticket
    split at link
    · rename_i gone
      refine ⟨l, l.window, link, rfl, fun reqId m entry => ⟨entry, ?_⟩⟩
      rw [ticket]
      rintro ⟨⟩
      rw [gone] at link
      cases link
    · rename_i old found
      rw [State.putLink, OrdMap.get?_insert] at link
      split at link
      · rename_i same
        cases link
        subst same
        refine ⟨old, _, found, rfl, fun reqId m entry => ⟨remove_fewer entry, ?_⟩⟩
        rw [ticket]
        rintro ⟨⟩
        rw [DispatchWindow.remove_pending, OrdMap.get?_erase, if_pos rfl] at entry
        cases entry
      · rename_i apart
        refine ⟨l, l.window, link, rfl, fun reqId m entry => ⟨entry, ?_⟩⟩
        rw [ticket]
        rintro ⟨⟩
        exact apart rfl

/-- The request gives its reservation up. -/
theorem Flows.leave (flows : Flows s) (valid : Valid setup s) (found : s.requests.get? n = some q) :
    Flows ((release s q).put n q') := by
  intro g l link
  obtain ⟨old, window, found', rfl, fewer⟩ := release_link (q := q) link
  have flow := flows g old found'
  refine ⟨flow.room, flow.read, fun on reqId m entry => ?_⟩
  obtain ⟨entry, other⟩ := fewer reqId m entry
  obtain under | ⟨p, msg, foundP, sending⟩ := flow.pending on reqId m entry
  · exact .inl under
  · by_cases same : m = n
    · -- its own entry is gone
      subst same
      obtain ⟨_, foundQ, ticket⟩ := (valid.links g old found').pending reqId m entry
      rw [found] at foundQ
      cases foundQ
      exact absurd ticket other
    · refine .inr ⟨p, msg, ?_, sending⟩
      rw [State.put, OrdMap.get?_insert_ne _ _ same, release_requests]
      exact foundP

theorem Flows.reserve {window : DispatchWindow} {config : Config} {msg : SrvMsg}
    {ticket : Option (Uuid × Uuid)} (flows : Flows s) (found : s.requests.get? n = some q)
    (stage : q.stage = .cloned g config)
    (link : s.links.get? g = some l) (room : l.window.reserveInFlight m = some window) :
    Flows ((s.putLink g { l with window := window.insert reqId n }).put n
      { q with stage := .sending msg, ticket := ticket }) := by
  have next := (flows.put (p := { q with stage := .sending msg, ticket := ticket }) found
    fun other sending => by rw [stage] at sending; cases sending)
  have flow := next g l link
  refine next.putLink (k := { l with window := window.insert reqId n })
    ⟨flow.room, flow.read, fun on r i entry => ?_⟩
  have pending : window.pending = l.window.pending := by
    unfold DispatchWindow.reserveInFlight at room
    split at room
    · cases room
    · cases room
      rfl
  rw [DispatchWindow.insert_pending, pending, OrdMap.get?_insert] at entry
  split at entry
  · cases entry
    exact .inr ⟨_, msg, s.requests.get?_insert_self n _, rfl⟩
  · exact flow.pending on r i entry

theorem Flows.send {msg : SrvMsg} (flows : Flows s) (valid : Valid setup s)
    (found : s.requests.get? n = some q) (stage : q.stage = .sending msg)
    (ticket : q.ticket = some (g, reqId)) (link : s.links.get? g = some l) :
    Flows ((s.putLink g { l with queue := l.queue ++ [msg] }).put n { q with stage := .waiting }) := by
  have message : ∃ m, msg = .dispatch m ∧ m.reqId = reqId := by
    have told := (valid.requests n q found).told
    simp only [Told, stage] at told
    obtain ⟨_, g', id, l', ticket', _, config, _, eq⟩ := told
    rw [ticket] at ticket'
    cases ticket'
    exact ⟨_, eq, rfl⟩
  intro k l' link'
  have old : ∃ old, s.links.get? k = some old ∧ l'.capacity = old.capacity ∧
      l'.stdin = old.stdin ∧ l'.stdout = old.stdout ∧ l'.linesRead = old.linesRead ∧
      l'.reading = old.reading ∧ l'.window = old.window ∧
      (∀ other ∈ old.queue, other ∈ l'.queue) ∧ (k = g → msg ∈ l'.queue) := by
    rw [State.put, State.putLink, OrdMap.get?_insert] at link'
    split at link'
    · rename_i same
      cases link'
      exact ⟨l, same ▸ link, rfl, rfl, rfl, rfl, rfl, rfl,
        fun _ mem => List.mem_append_left _ mem, fun _ => by simp⟩
    · rename_i apart
      exact ⟨l', link', rfl, rfl, rfl, rfl, rfl, rfl, fun _ mem => mem, fun same => absurd same apart⟩
  obtain ⟨old, found', capacity, stdin, stdout, linesRead, reading, window, queue, sent⟩ := old
  have flow := flows k old found'
  refine ⟨capacity ▸ flow.room, by rw [linesRead, stdout]; exact flow.read,
    fun on r i entry => ?_⟩
  rw [window] at entry
  obtain under | ⟨p, other, foundP, sending⟩ := flow.pending (reading ▸ on) r i entry
  · exact .inl (under.of_parts (fun _ mem => queue _ mem)
      fun line mem => by rwa [stdin, linesRead])
  · by_cases same : i = n
    · -- the message that was about to be sent is in the channel
      subst same
      obtain ⟨_, foundQ, ticket'⟩ := (valid.links k old found').pending r i entry
      rw [found] at foundQ
      cases foundQ
      rw [ticket] at ticket'
      cases ticket'
      obtain ⟨m, rfl, id⟩ := message
      exact .inl ⟨m, id, .inl (sent rfl)⟩
    · exact .inr ⟨p, other, (OrdMap.get?_insert_ne _ _ same).trans foundP, sending⟩

theorem advance_flows {a : RequestAction} (flows : Flows s) (valid : Valid setup s)
    (found : s.requests.get? n = some q) (hs : advance setup s n q a = some t) : Flows t := by
  have quiet : ∀ {stage : Stage} {p : Request}, q.stage = stage → (∀ msg, stage ≠ .sending msg) →
      Flows (s.put n p) := by
    intro stage p eq other
    exact flows.put found fun msg sending => absurd (eq.symm.trans sending) (other msg)
  cases advance_moves hs with
  | decline _ response early =>
    refine quiet rfl fun msg sending => ?_
    rw [sending] at early
    cases early
  | forward _ stage ahead =>
    refine quiet rfl fun msg sending => ?_
    rw [sending] at ahead
    cases ahead
  | reserve g reqId config l window stage _ _ link room =>
    exact flows.reserve found stage link room
  | send g reqId l msg stage ticket link => exact flows.send valid found stage ticket link
  | sendFails => exact flows.leave valid found
  | receive g reqId l result events violations stage slot ticket link =>
    have next := quiet (p := { q with stage := .fanning result.http, slot := none }) stage
      (by rintro _ ⟨⟩)
    have flow := next g l link
    have same := flow.of_same (k := { l with namespaceViolations := violations })
      rfl rfl rfl rfl rfl rfl fun _ _ entry => entry
    exact (next.putLink (g := g) same).of_eq rfl rfl
  | timeout stage => exact quiet stage (by rintro _ ⟨⟩)
  | removePending => exact flows.leave valid found
  | dead stage => exact quiet stage (by rintro _ ⟨⟩)
  | respond reply stage => exact quiet stage (by rintro _ ⟨⟩)
  | cancelReserved => exact flows.leave valid found
  | cancel other => exact quiet rfl other

/-! ## The tasks of a generation -/

/-- A result takes its own entry away, and the other lines are still to be read. -/
theorem readLine_flow {child : Kit} {line : Line} (flow : Flow s l) (valid : Valid setup s)
    (correct : ∀ j : Json, j.Fits → setup.read j.render = some j)
    (link : s.links.get? g = some l) (isKit : setup.programs g = .kit child)
    (at' : l.stdout[l.linesRead]? = some line) : Flow s (readLine setup s g l line).1 := by
  obtain ⟨asked, m, reply, events, stdin, decodes, back⟩ := kit_next valid correct link isKit at'
  have short := (List.getElem?_eq_some_iff.mp at').1
  have first : l.stdin.drop l.linesRead = asked :: l.stdin.drop (l.linesRead + 1) := by
    obtain ⟨bound, rfl⟩ := List.getElem?_eq_some_iff.mp stdin
    exact List.drop_eq_getElem_cons bound
  -- an entry under another id does not wait for this line
  have later : ∀ r i, l.window.pending.get? r = some i → r ≠ m.reqId → l.reading = true →
      UnderWay { l with linesRead := l.linesRead + 1 } r ∨ Sending s i := by
    intro r i entry ne on
    obtain ⟨m', id, queued | written⟩ | sending := flow.pending on r i entry
    · exact .inl ⟨m', id, .inl queued⟩
    · rw [first] at written
      obtain eq | written := List.mem_cons.mp written
      · obtain ⟨q, found, ticket⟩ := (valid.links g l link).pending r i entry
        have small : m'.reqId < uuidSize := id ▸ ((valid.requests i q found).routed g r ticket).2
        have again := (decodeLine_render correct (m := SrvMsg.dispatch m') small).1
        rw [eq, decodes] at again
        cases again
        exact absurd id.symm ne
      · exact .inl ⟨m', id, .inr written⟩
    · exact .inr sending
  unfold readLine
  dsimp only
  split
  · exact ⟨flow.room, short, by rintro ⟨⟩⟩
  · rw [back]
    dsimp only
    split
    · rename_i i window removed
      have window_eq : window = (l.window.remove m.reqId).2 := by rw [removed]
      refine ⟨flow.room, short, fun on r i entry => ?_⟩
      dsimp only at entry
      rw [window_eq, DispatchWindow.remove_pending, OrdMap.get?_erase] at entry
      split at entry
      · cases entry
      · rename_i ne
        obtain under | sending := later r i entry ne on
        · exact .inl (under.of_parts (fun _ mem => mem) fun _ mem => mem)
        · exact .inr sending
    · rename_i window removed
      have absent : l.window.pending.get? m.reqId = none := by
        rw [← DispatchWindow.remove_found, removed]
      have window_eq : window = l.window := by
        rw [DispatchWindow.remove_absent absent] at removed
        exact (congrArg Prod.snd removed).symm
      refine ⟨flow.room, short, fun on r i entry => ?_⟩
      dsimp only at entry
      rw [window_eq] at entry
      by_cases same : r = m.reqId
      · rw [same, absent] at entry
        cases entry
      · obtain under | sending := later r i entry same on
        · exact .inl (under.of_parts (fun _ mem => mem) fun _ mem => mem)
        · exact .inr sending

theorem sendResult_flows {result : ExtResult} (flows : Flows s) (link : s.links.get? g = some l) :
    Flows (sendResult s g l n result) := by
  have next : Flows (s.putLink g { l with reader := none }) :=
    flows.putLink ((flows g l link).of_same rfl rfl rfl rfl rfl rfl fun _ _ entry => entry)
  unfold sendResult
  dsimp only
  split
  · rename_i q found
    split
    · exact next.put found fun _ sending => sending
    · exact next
  · exact next

/-- All children are of the kit. -/
def AllKit (setup : Setup) : Prop := ∀ g, ∃ child, setup.programs g = .kit child

theorem runLink_flows {a : LinkAction} (flows : Flows s) (valid : Valid setup s)
    (correct : ∀ j : Json, j.Fits → setup.read j.render = some j) (kits : AllKit setup)
    (link : s.links.get? g = some l) (hs : runLink setup s g l a = some t) : Flows t := by
  have flow := flows g l link
  obtain ⟨child, isKit⟩ := kits g
  cases a with
  | write =>
    simp only [runLink] at hs
    split at hs
    · cases hs
    · rename_i msg rest queue
      cases hs
      refine flows.putLink ⟨flow.room, flow.read, fun on r i entry => ?_⟩
      obtain ⟨m, id, queued | written⟩ | sending := flow.pending on r i entry
      · rw [queue] at queued
        obtain rfl | queued := List.mem_cons.mp queued
        · have behind : l.linesRead ≤ l.stdin.length :=
            flow.read.trans (kit_printed valid link isKit)
          refine .inl ⟨m, id, .inr ?_⟩
          rw [List.drop_append_of_le_length behind]
          exact List.mem_append_right _ (List.mem_singleton.mpr rfl)
        · exact .inl ⟨m, id, .inl queued⟩
      · refine .inl ⟨m, id, .inr ?_⟩
        exact ((List.sublist_append_left _ _).drop _).subset written
      · exact .inr sending
  | shutdown =>
    simp only [runLink] at hs
    split at hs
    · cases hs
      refine flows.putLink ⟨flow.room, flow.read, fun on r i entry => ?_⟩
      exact (flow.pending on r i entry).imp
        (fun under => under.of_parts (fun _ mem => List.mem_append_left _ mem) fun _ mem => mem) id
    · cases hs
  | print line =>
    simp only [runLink] at hs
    split at hs
    · cases hs
      refine flows.putLink ⟨flow.room, ?_, fun on r i entry => ?_⟩
      · have read := flow.read
        simp only [List.length_append, List.length_singleton]
        omega
      · exact (flow.pending on r i entry).imp
          (fun under => under.of_parts (fun _ mem => mem) fun _ mem => mem) id
    · cases hs
  | readLine =>
    simp only [runLink] at hs
    split at hs
    · split at hs
      · cases hs
      · rename_i line at'
        cases hs
        have next := readLine_flow flow valid correct link isKit at'
        exact (flows.putLink (g := g) next).of_eq rfl rfl
    · cases hs
  | sendResult =>
    simp only [runLink] at hs
    split at hs
    · cases hs
    · cases hs
      exact sendResult_flows flows link
  | clear =>
    cases hs
    refine flows.putLink (flow.of_same rfl rfl rfl rfl rfl rfl fun r i entry => ?_)
    rw [DispatchWindow.clear_pending] at entry
    cases entry

theorem step_flows {a : Action} (flows : Flows s) (valid : Valid setup s)
    (correct : ∀ j : Json, j.Fits → setup.read j.render = some j) (kits : AllKit setup)
    (hs : step setup s a = some t) : Flows t := by
  cases a with
  | arrive n http =>
    simp only [step] at hs
    split at hs
    · cases hs
    · rename_i fresh
      cases hs
      intro g l link
      have flow := flows g l link
      refine ⟨flow.room, flow.read, fun on r i entry => ?_⟩
      obtain under | ⟨q, msg, found, sending⟩ := flow.pending on r i entry
      · exact .inl under
      · by_cases same : i = n
        · subst same
          simp [found] at fresh
        · exact .inr ⟨q, msg, (OrdMap.get?_insert_ne _ _ same).trans found, sending⟩
  | request n a =>
    obtain ⟨q, found, hs⟩ := Option.bind_eq_some_iff.mp hs
    exact advance_flows flows valid found hs
  | link g a =>
    obtain ⟨l, link, hs⟩ := Option.bind_eq_some_iff.mp hs
    exact runLink_flows flows valid correct kits link hs
  | start handle =>
    simp only [step] at hs
    split at hs
    · cases hs
    · cases hs
      apply flows.putLink
      refine ⟨?_, Nat.le_refl _, by rintro _ _ _ ⟨⟩⟩
      simp only [newLink]
      omega
  | setTables tables =>
    cases hs
    exact flows.of_eq rfl rfl
  | reload config =>
    cases hs
    exact flows.of_eq rfl rfl

theorem starts_flows (starts : Starts s) : Flows s := by
  intro g l link
  rw [starts.2.2.1] at link
  cases link

end Whdr.Ingest
