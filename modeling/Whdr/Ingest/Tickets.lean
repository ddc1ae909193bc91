import Whdr.Ingest.Webhooks
import Whdr.Server.DispatchCourse

/-! What holds of every request, every generation and every batch at any time: each reservation
is known by its id, and what comes back under the id belongs to the request. -/
namespace Whdr.Ingest

open Whdr.Configuration (Config)
open Lifecycle (ExtHandle)
open Dispatch (owned filter_owned owned_owned)
open Ndjson (decodeLine)
open Wire (toJson uuidSize)

variable {setup : Setup} {s t : State} {n m : Nat} {q q' : Request} {g h reqId : Uuid} {l l' : Link}

/-! ## Where things come from -/

/-- The child wrote this result. -/
def Printed (read : Line → Option Json) (l : Link) (reqId : Uuid) (reply : HttpReply)
    (events : List Event) : Prop :=
  ∃ line ∈ l.stdout, decodeLine read line = .ok (some (ExtMsg.result reqId reply events))

/-- The tables in force led the request's path to the generation. -/
def Routed (s : State) (http : HttpRequest) (g : Uuid) : Prop :=
  ∃ routeKey extId, routeKeyFromPath http.path = some routeKey ∧
    (∃ tables ∈ s.tabled, tables.routes.get? routeKey = some extId) ∧
    ∃ tables ∈ s.tabled, tables.extensions.get? extId = some g

/-- The request under its reservation, with the secret of the extension in a configuration that
was in force. -/
def MessageOf (setup : Setup) (s : State) (handle : ExtHandle) (http : HttpRequest) (reqId : Uuid)
    (msg : SrvMsg) : Prop :=
  ∃ config ∈ s.configs, msg = .dispatch
    (dispatchMsg setup.http setup.b64Encode http reqId (config.secrets.get? handle.id))

/-- A Shutdown, or the message of a request reserved with the generation. -/
def Sent (setup : Setup) (s : State) (g : Uuid) (handle : ExtHandle) (msg : SrvMsg) : Prop :=
  msg = .shutdown ∨ ∃ n q reqId, s.requests.get? n = some q ∧ q.ticket = some (g, reqId) ∧
    MessageOf setup s handle q.http reqId msg

/-- A result for the request: its own child wrote it under its id. -/
def Held (setup : Setup) (s : State) (q : Request) (result : ExtResult) : Prop :=
  ∃ g reqId l events, q.ticket = some (g, reqId) ∧ s.links.get? g = some l ∧
    Printed setup.read l reqId result.http events ∧ result.events = owned l.handle events

def State.fannedFor (s : State) (n : Nat) : List Batch := s.fanned.filter fun b => b.request = some n

/-- The child answered the request, and what it may emit was fanned out once. -/
def Replied (setup : Setup) (s : State) (n : Nat) (q : Request) (reply : HttpReply) : Prop :=
  ∃ g reqId l events, q.ticket = some (g, reqId) ∧ s.links.get? g = some l ∧
    Printed setup.read l reqId reply events ∧ s.fannedFor n = [⟨g, some n, owned l.handle events⟩]

/-- The daemon answers by itself. -/
inductive Refusal (s : State) (http : HttpRequest) : Response → Prop
  | tooLarge (config : Config) : config ∈ s.configs →
      config.limits.maxBodyBytes < http.body.length → Refusal s http (statusResponse 413)
  | noRoute : routeKeyFromPath http.path = none → Refusal s http (statusResponse 404)
  | error (e : DispatchError) : Refusal s http (errorResponse e)

def Accounted (setup : Setup) (s : State) (n : Nat) (q : Request) (response : Response) : Prop :=
  s.fannedFor n = [] ∧ Refusal s q.http response ∨
    ∃ reply, Replied setup s n q reply ∧ response = httpReplyToResponse setup.http reply

/-- What is so at each stage of a request. -/
def Told (setup : Setup) (s : State) (n : Nat) (q : Request) : Prop :=
  match q.stage with
  | .arrived => s.fannedFor n = [] ∧ q.ticket = none
  | .keyed routeKey => s.fannedFor n = [] ∧ q.ticket = none ∧
      routeKeyFromPath q.http.path = some routeKey
  | .routed extId => s.fannedFor n = [] ∧ q.ticket = none ∧
      ∃ routeKey, routeKeyFromPath q.http.path = some routeKey ∧
        ∃ tables ∈ s.tabled, tables.routes.get? routeKey = some extId
  | .handled g => s.fannedFor n = [] ∧ q.ticket = none ∧ Routed s q.http g
  | .cloned g config => s.fannedFor n = [] ∧ q.ticket = none ∧ Routed s q.http g ∧
      config ∈ s.configs
  | .sending msg => s.fannedFor n = [] ∧ ∃ g reqId l, q.ticket = some (g, reqId) ∧
      s.links.get? g = some l ∧ MessageOf setup s l.handle q.http reqId msg
  | .waiting | .timedOut => s.fannedFor n = []
  | .fanning reply => Replied setup s n q reply
  | .answered response => Accounted setup s n q response
  | .dropped => s.fannedFor n = [] ∨ ∃ reply, Replied setup s n q reply

structure RequestValid (setup : Setup) (s : State) (n : Nat) (q : Request) : Prop where
  told : Told setup s n q
  routed : ∀ g reqId, q.ticket = some (g, reqId) → Routed s q.http g ∧ reqId < uuidSize
  held : ∀ result, q.slot = some result → Held setup s q result

structure LinkValid (setup : Setup) (s : State) (g : Uuid) (l : Link) : Prop where
  queue : ∀ msg ∈ l.queue, Sent setup s g l.handle msg
  stdin : ∀ line ∈ l.stdin, ∃ msg, line = (toJson msg).render ∧ Sent setup s g l.handle msg
  stdout : ∀ child, setup.programs g = .kit child → l.stdout <+:
    (Ext.serve setup.read child.handle l.stdin).1.map fun msg => (toJson msg).render
  pending : ∀ reqId n, l.window.pending.get? reqId = some n →
    ∃ q, s.requests.get? n = some q ∧ q.ticket = some (g, reqId)
  reader : ∀ n result, l.reader = some (n, result) →
    ∃ q, s.requests.get? n = some q ∧ Held setup s q result

/-- Where a batch comes from: a request that is known, or an Event line. -/
structure BatchValid (setup : Setup) (s : State) (b : Batch) : Prop where
  link : ∃ l, s.links.get? b.generation = some l ∧ ∀ e ∈ b.events, l.handle.owns e.channel
  known : ∀ n, b.request = some n → ∃ q, s.requests.get? n = some q
  line : b.request = none → ∃ l ev, s.links.get? b.generation = some l ∧
    (∃ line ∈ l.stdout, decodeLine setup.read line = .ok (some (ExtMsg.event ev))) ∧
    b.events = owned l.handle [ev]

structure Valid (setup : Setup) (s : State) : Prop where
  config : s.config ∈ s.configs
  tables : s.tables ∈ s.tabled
  requests : ∀ n q, s.requests.get? n = some q → RequestValid setup s n q
  distinct : ∀ n m p q g h reqId, s.requests.get? n = some p → s.requests.get? m = some q →
    p.ticket = some (g, reqId) → q.ticket = some (h, reqId) → n = m
  links : ∀ g l, s.links.get? g = some l → LinkValid setup s g l
  fanned : ∀ b ∈ s.fanned, BatchValid setup s b

/-! ## What grows -/

/-- Nothing recorded is taken back. -/
structure Grows (s t : State) : Prop where
  configs : s.configs ⊆ t.configs
  tabled : s.tabled ⊆ t.tabled
  links : ∀ g l, s.links.get? g = some l →
    ∃ l', t.links.get? g = some l' ∧ l'.handle = l.handle ∧ l.stdout ⊆ l'.stdout
  requests : ∀ n q, s.requests.get? n = some q → ∃ q', t.requests.get? n = some q' ∧
    q'.http = q.http ∧ ∀ ticket, q.ticket = some ticket → q'.ticket = some ticket

theorem Printed.grows {read : Line → Option Json} {reply : HttpReply} {events : List Event}
    (printed : Printed read l reqId reply events) (more : l.stdout ⊆ l'.stdout) :
    Printed read l' reqId reply events := by
  obtain ⟨line, mem, decodes⟩ := printed
  exact ⟨line, more mem, decodes⟩

theorem Routed.grows {http : HttpRequest} (routed : Routed s http g) (grows : Grows s t) :
    Routed t http g := by
  obtain ⟨routeKey, extId, key, ⟨tables, inForce, route⟩, ⟨others, alsoInForce, ext⟩⟩ := routed
  exact ⟨routeKey, extId, key, ⟨tables, grows.tabled inForce, route⟩,
    ⟨others, grows.tabled alsoInForce, ext⟩⟩

theorem MessageOf.grows {handle : ExtHandle} {http : HttpRequest} {msg : SrvMsg}
    (message : MessageOf setup s handle http reqId msg) (grows : Grows s t) :
    MessageOf setup t handle http reqId msg := by
  obtain ⟨config, inForce, eq⟩ := message
  exact ⟨config, grows.configs inForce, eq⟩

theorem Sent.grows {handle : ExtHandle} {msg : SrvMsg} (sent : Sent setup s g handle msg)
    (grows : Grows s t) : Sent setup t g handle msg := by
  obtain isShutdown | ⟨n, q, reqId, found, ticket, message⟩ := sent
  · exact .inl isShutdown
  · obtain ⟨q', found', http, keeps⟩ := grows.requests n q found
    refine .inr ⟨n, q', reqId, found', keeps _ ticket, ?_⟩
    rw [http]
    exact message.grows grows

theorem Held.grows {result : ExtResult} (held : Held setup s q result) (grows : Grows s t)
    (keeps : ∀ ticket, q.ticket = some ticket → q'.ticket = some ticket) :
    Held setup t q' result := by
  obtain ⟨g, reqId, l, events, ticket, link, printed, eq⟩ := held
  obtain ⟨l', link', handle, more⟩ := grows.links g l link
  exact ⟨g, reqId, l', events, keeps _ ticket, link', printed.grows more, by rw [eq, handle]⟩

theorem Replied.grows {reply : HttpReply} (replied : Replied setup s n q reply) (grows : Grows s t)
    (same : t.fannedFor n = s.fannedFor n)
    (keeps : ∀ ticket, q.ticket = some ticket → q'.ticket = some ticket) :
    Replied setup t n q' reply := by
  obtain ⟨g, reqId, l, events, ticket, link, printed, eq⟩ := replied
  obtain ⟨l', link', handle, more⟩ := grows.links g l link
  exact ⟨g, reqId, l', events, keeps _ ticket, link', printed.grows more, by rw [same, eq, handle]⟩

theorem Refusal.grows {http : HttpRequest} {response : Response} (refusal : Refusal s http response)
    (grows : Grows s t) : Refusal t http response := by
  cases refusal with
  | tooLarge config inForce large => exact .tooLarge config (grows.configs inForce) large
  | noRoute none => exact .noRoute none
  | error e => exact .error e

theorem Accounted.grows {response : Response} (accounted : Accounted setup s n q response)
    (grows : Grows s t) (same : t.fannedFor n = s.fannedFor n) : Accounted setup t n q response := by
  obtain ⟨nothing, refusal⟩ | ⟨reply, replied, eq⟩ := accounted
  · exact .inl ⟨same.trans nothing, refusal.grows grows⟩
  · exact .inr ⟨reply, replied.grows grows same fun _ ticket => ticket, eq⟩

theorem Told.grows (told : Told setup s n q) (grows : Grows s t)
    (same : t.fannedFor n = s.fannedFor n) : Told setup t n q := by
  cases stage : q.stage with
  | arrived | keyed | waiting | timedOut => simpa only [Told, stage, same] using told
  | routed extId =>
    simp only [Told, stage, same] at told ⊢
    obtain ⟨nothing, none, routeKey, key, tables, inForce, route⟩ := told
    exact ⟨nothing, none, routeKey, key, tables, grows.tabled inForce, route⟩
  | handled g =>
    simp only [Told, stage, same] at told ⊢
    exact ⟨told.1, told.2.1, told.2.2.grows grows⟩
  | cloned g config =>
    simp only [Told, stage, same] at told ⊢
    obtain ⟨nothing, free, routed, inForce⟩ := told
    exact ⟨nothing, free, routed.grows grows, grows.configs inForce⟩
  | sending msg =>
    simp only [Told, stage, same] at told ⊢
    obtain ⟨nothing, g, reqId, l, ticket, link, message⟩ := told
    obtain ⟨l', link', handle, -⟩ := grows.links g l link
    refine ⟨nothing, g, reqId, l', ticket, link', ?_⟩
    rw [handle]
    exact message.grows grows
  | fanning reply =>
    simp only [Told, stage] at told ⊢
    exact told.grows grows same fun _ ticket => ticket
  | answered response =>
    simp only [Told, stage] at told ⊢
    exact told.grows grows same
  | dropped =>
    simp only [Told, stage, same] at told ⊢
    obtain nothing | ⟨reply, replied⟩ := told
    · exact .inl nothing
    · exact .inr ⟨reply, replied.grows grows same fun _ ticket => ticket⟩

theorem RequestValid.grows (valid : RequestValid setup s n q) (grows : Grows s t)
    (same : t.fannedFor n = s.fannedFor n) : RequestValid setup t n q where
  told := valid.told.grows grows same
  routed g reqId ticket :=
    ⟨(valid.routed g reqId ticket).1.grows grows, (valid.routed g reqId ticket).2⟩
  held result slot := (valid.held result slot).grows grows fun _ ticket => ticket

theorem LinkValid.grows (valid : LinkValid setup s g l) (grows : Grows s t) :
    LinkValid setup t g l where
  queue msg mem := (valid.queue msg mem).grows grows
  stdin line mem := by
    obtain ⟨msg, eq, sent⟩ := valid.stdin line mem
    exact ⟨msg, eq, sent.grows grows⟩
  stdout := valid.stdout
  pending reqId n entry := by
    obtain ⟨q, found, ticket⟩ := valid.pending reqId n entry
    obtain ⟨q', found', -, keeps⟩ := grows.requests n q found
    exact ⟨q', found', keeps _ ticket⟩
  reader n result reading := by
    obtain ⟨q, found, held⟩ := valid.reader n result reading
    obtain ⟨q', found', -, keeps⟩ := grows.requests n q found
    exact ⟨q', found', held.grows grows keeps⟩

theorem BatchValid.grows {b : Batch} (valid : BatchValid setup s b) (grows : Grows s t) :
    BatchValid setup t b where
  link := by
    obtain ⟨l, link, owns⟩ := valid.link
    obtain ⟨l', link', handle, -⟩ := grows.links _ l link
    exact ⟨l', link', fun e mem => handle ▸ owns e mem⟩
  known n isFor := by
    obtain ⟨q, found⟩ := valid.known n isFor
    obtain ⟨q', found', -⟩ := grows.requests n q found
    exact ⟨q', found'⟩
  line isLine := by
    obtain ⟨l, ev, link, ⟨line, mem, decodes⟩, eq⟩ := valid.line isLine
    obtain ⟨l', link', handle, more⟩ := grows.links _ l link
    exact ⟨l', ev, link', ⟨line, more mem, decodes⟩, by rw [eq, handle]⟩

end Whdr.Ingest
