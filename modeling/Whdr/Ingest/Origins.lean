import Whdr.Ingest.WebhookSteps

/-! Every webhook is answered by its own extension or refused by the daemon, and every event
fanned out has a request or an Event line behind it. -/
namespace Whdr.Ingest

open Whdr.Configuration (Config)
open Dispatch (owned)
open Ndjson (decodeLine decodeLine_render)
open Ext (asBytes)
open Runs (Reaches exec guarded reaches_of_exec)
open Wire (toJson InRange uuidSize u16Size)

variable {setup : Setup} {s : State} {n : Nat} {q : Request} {g reqId : Uuid} {l : Link}
  {reply : HttpReply} {events : List Event}

/-! ## The property -/

/-- The request was routed to the generation, and this is what its child wrote under the
request's id: of a child of the kit, what its handler makes of this very request, with the
secret of this extension and no other. -/
structure Answer (setup : Setup) (s : State) (q : Request) (g : Uuid) (l : Link) (reply : HttpReply)
    (events : List Event) : Prop where
  link : s.links.get? g = some l
  routed : Routed s q.http g
  printed : ∃ reqId, q.ticket = some (g, reqId) ∧ Printed setup.read l reqId reply events
  handled : ∀ child, setup.programs g = .kit child → ∃ reqId, ∃ config ∈ s.configs,
    child.handle (.dispatch (dispatchMsg setup.http setup.b64Encode q.http reqId
      (config.secrets.get? l.handle.id))) = .ok (reply, events)

/-- The batches of a request are one, with the events of the answer the extension may emit. -/
def Emitted (setup : Setup) (s : State) (n : Nat) (q : Request) (reply : HttpReply) : Prop :=
  ∃ g l events, Answer setup s q g l reply events ∧
    s.fannedFor n = [⟨g, some n, owned l.handle events⟩]

/-- `answers`: a response is the daemon's refusal, and nothing was fanned out, or the answer of
the extension. `batches`: a batch has a request, whose only batch it is, or an Event line of a
program that is not the kit's, and is on channels of its extension. `told`: a child is told
requests routed to it, with its own secret. -/
structure Sound (setup : Setup) (s : State) : Prop where
  answers : ∀ n q response, s.requests.get? n = some q → q.stage = .answered response →
    s.fannedFor n = [] ∧ Refusal s q.http response ∨
      ∃ reply, Emitted setup s n q reply ∧ response = httpReplyToResponse setup.http reply
  batches : ∀ b ∈ s.fanned,
    (∃ l, s.links.get? b.generation = some l ∧ ∀ e ∈ b.events, l.handle.owns e.channel) ∧
      ((b.request = none ∧ setup.programs b.generation = .free) ∨
        ∃ n q reply, b.request = some n ∧ s.requests.get? n = some q ∧ Emitted setup s n q reply ∧
          s.fannedFor n = [b])
  told : ∀ g l line, s.links.get? g = some l → line ∈ l.stdin →
    line = (toJson SrvMsg.shutdown).render ∨
      ∃ n q reqId, ∃ config ∈ s.configs, s.requests.get? n = some q ∧ Routed s q.http g ∧
        line = (toJson (SrvMsg.dispatch (dispatchMsg setup.http setup.b64Encode q.http reqId
          (config.secrets.get? l.handle.id)))).render

/-! ## Children of the kit -/

theorem serve_result {read : Line → Option Json} {handle : SrvMsg → Ext.DispatchResult}
    {lines : List Line} {msg : ExtMsg} (mem : msg ∈ (Ext.serve read handle lines).1) :
    ∃ line ∈ lines, ∃ m reply events,
      decodeLine read line = .ok (some (SrvMsg.dispatch m)) ∧
      handle (.dispatch m) = .ok (reply, events) ∧ msg = .result m.reqId reply events := by
  induction lines with
  | nil => cases mem
  | cons line rest ih =>
    simp only [Ext.serve] at mem
    have later : msg ∈ (Ext.serve read handle rest).1 → ∃ line' ∈ line :: rest, ∃ m reply events,
        decodeLine read line' = .ok (some (SrvMsg.dispatch m)) ∧
        handle (.dispatch m) = .ok (reply, events) ∧ msg = .result m.reqId reply events := by
      intro mem
      obtain ⟨line', inside, more⟩ := ih mem
      exact ⟨line', List.mem_cons_of_mem _ inside, more⟩
    split at mem
    · cases mem
    · exact later mem
    · cases mem
    · rename_i m decodes
      split at mem
      · cases mem
      · rename_i reply events answered
        obtain rfl | mem := List.mem_cons.mp mem
        · exact ⟨line, List.mem_cons_self, m, reply, events, decodes, answered, rfl⟩
        · exact later mem

/-- A line of a child of the kit is the result of its handler for a request reserved with it. -/
theorem kit_line {child : Kit} {line : Line} (valid : Valid setup s)
    (correct : ∀ j : Json, j.Fits → setup.read j.render = some j)
    (link : s.links.get? g = some l) (isKit : setup.programs g = .kit child)
    (mem : line ∈ l.stdout) :
    ∃ n q reqId reply events, ∃ config ∈ s.configs, s.requests.get? n = some q ∧
      q.ticket = some (g, reqId) ∧
      child.handle (.dispatch (dispatchMsg setup.http setup.b64Encode q.http reqId
        (config.secrets.get? l.handle.id))) = .ok (reply, events) ∧
      decodeLine setup.read line = .ok (some (ExtMsg.result reqId reply events)) := by
  have old := valid.links g l link
  obtain ⟨msg, written, rfl⟩ := List.mem_map.mp ((old.stdout child isKit).subset mem)
  obtain ⟨line, inside, m, reply, events, decodes, answered, rfl⟩ := serve_result written
  obtain ⟨sentMsg, rfl, sent⟩ := old.stdin line inside
  obtain rfl | ⟨n, q, reqId, found, ticket, config, inForce, rfl⟩ := sent
  · have back := (decodeLine_render correct (m := SrvMsg.shutdown) trivial).1
    rw [back] at decodes
    cases decodes
  · have small := ((valid.requests n q found).routed g reqId ticket).2
    have back := (decodeLine_render correct (m := SrvMsg.dispatch (dispatchMsg setup.http
      setup.b64Encode q.http reqId (config.secrets.get? l.handle.id))) small).1
    rw [back] at decodes
    cases decodes
    have fits : InRange (ExtMsg.result reqId reply events) :=
      ⟨small, child.statusFits _ _ _ answered⟩
    exact ⟨n, q, reqId, reply, events, config, inForce, found, ticket, answered,
      (decodeLine_render correct fits).1⟩

theorem Valid.answer_handled (valid : Valid setup s)
    (correct : ∀ j : Json, j.Fits → setup.read j.render = some j)
    (found : s.requests.get? n = some q) (ticket : q.ticket = some (g, reqId))
    (link : s.links.get? g = some l) (printed : Printed setup.read l reqId reply events) :
    Answer setup s q g l reply events where
  link := link
  routed := ((valid.requests n q found).routed g reqId ticket).1
  printed := ⟨reqId, ticket, printed⟩
  handled child isKit := by
    obtain ⟨line, mem, decodes⟩ := printed
    obtain ⟨m, p, other, reply', events', config, inForce, found', ticket', answered, back⟩ :=
      kit_line valid correct link isKit mem
    rw [back] at decodes
    cases decodes
    -- ids are not shared
    obtain rfl := valid.distinct n m q p g g reqId found found' ticket ticket'
    rw [found] at found'
    cases found'
    exact ⟨reqId, config, inForce, answered⟩

theorem Valid.emitted (valid : Valid setup s)
    (correct : ∀ j : Json, j.Fits → setup.read j.render = some j)
    (found : s.requests.get? n = some q) (replied : Replied setup s n q reply) :
    Emitted setup s n q reply := by
  obtain ⟨g, reqId, l, events, ticket, link, printed, once⟩ := replied
  exact ⟨g, l, events, valid.answer_handled correct found ticket link printed, once⟩

/-- A request with a batch has been answered by its child. -/
theorem Valid.replied {b : Batch} (valid : Valid setup s) (found : s.requests.get? n = some q)
    (mem : b ∈ s.fannedFor n) : ∃ reply, Replied setup s n q reply := by
  have some : s.fannedFor n ≠ [] := List.ne_nil_of_mem mem
  have told := (valid.requests n q found).told
  unfold Told at told
  cases stage : q.stage with
  | arrived | keyed | routed | handled | cloned | sending =>
    simp only [stage] at told
    exact absurd told.1 some
  | waiting | timedOut =>
    simp only [stage] at told
    exact absurd told some
  | fanning reply =>
    simp only [stage] at told
    exact ⟨reply, told⟩
  | answered response =>
    simp only [stage] at told
    obtain ⟨nothing, _⟩ | ⟨reply, replied, _⟩ := told
    · exact absurd nothing some
    · exact ⟨reply, replied⟩
  | dropped =>
    simp only [stage] at told
    obtain nothing | replied := told
    · exact absurd nothing some
    · exact replied

theorem Valid.sound (valid : Valid setup s)
    (correct : ∀ j : Json, j.Fits → setup.read j.render = some j) : Sound setup s where
  answers n q response found stage := by
    have told := (valid.requests n q found).told
    simp only [Told, stage] at told
    obtain refused | ⟨reply, replied, eq⟩ := told
    · exact .inl refused
    · exact .inr ⟨reply, valid.emitted correct found replied, eq⟩
  batches b mem := by
    have batch := valid.fanned b mem
    refine ⟨batch.link, ?_⟩
    cases request : b.request with
    | none =>
      obtain ⟨l, ev, link, ⟨line, inside, decodes⟩, -⟩ := batch.line request
      cases program : setup.programs b.generation with
      | free => exact .inl ⟨rfl, rfl⟩
      | kit child =>
        obtain ⟨_, _, _, _, _, _, _, _, _, _, back⟩ := kit_line valid correct link program inside
        rw [back] at decodes
        cases decodes
    | some n =>
      obtain ⟨q, found⟩ := batch.known n request
      have inside : b ∈ s.fannedFor n := List.mem_filter.mpr ⟨mem, by simpa using request⟩
      obtain ⟨reply, replied⟩ := valid.replied found inside
      have emitted := valid.emitted correct found replied
      obtain ⟨g, l, events, -, once⟩ := emitted
      have same : b = ⟨g, some n, owned l.handle events⟩ := by
        rw [once] at inside
        exact List.mem_singleton.mp inside
      exact .inr ⟨n, q, reply, rfl, found, valid.emitted correct found replied, by rw [once, same]⟩
  told g l line link mem := by
    obtain ⟨msg, rfl, sent⟩ := (valid.links g l link).stdin line mem
    obtain rfl | ⟨n, q, reqId, found, ticket, config, inForce, rfl⟩ := sent
    · exact .inl rfl
    · exact .inr ⟨n, q, reqId, config, inForce, found,
        ((valid.requests n q found).routed g reqId ticket).1, rfl⟩

/-- In every order of requests, children, lifecycle and reloads, every webhook is refused by the
daemon or gets the answer of the extension it was routed to, made for it alone, and its events
are fanned out once. -/
theorem webhooks_sound (setup : Setup)
    (correct : ∀ j : Json, j.Fits → setup.read j.render = some j) (s : State)
    (run : Reaches Starts (step setup) (fun _ _ => True) s) : Sound setup s := by
  have valid : Valid setup s := run.invariant (Valid setup) (fun _ starts => starts_valid starts)
    fun _ _ _ _ valid _ hs => step_valid valid hs
  exact valid.sound correct

/-- A library that takes visible ASCII. -/
def asciiHttp : HttpLibrary where
  toStr bytes :=
    if bytes.all fun b => 32 ≤ b && b < 127 then
      some (String.ofList (bytes.map fun b => Char.ofNat b.toNat))
    else none
  isStatus status := 100 ≤ status && status < 1000
  headerName name := some (toAsciiLowercase name)
  headerValue value := if (asBytes value).all fun b => 32 ≤ b && b < 127 then some (asBytes value) else none

/-- A handler that emits on its own channel and on another. -/
def pushed : Kit where
  handle _ := .ok (⟨201, .empty, "ok"⟩, [⟨"a.pushed", ""⟩, ⟨"b.pushed", ""⟩])
  statusFits := by
    rintro _ _ _ ⟨⟩
    decide

def pushing : Setup := ⟨asciiHttp, fun _ => "", Json.read, fun _ => .kit pushed⟩

def started : State :=
  ⟨.default, [.default], ⟨.empty, .empty, [], []⟩, [⟨.empty, .empty, [], []⟩], .empty, .empty, []⟩

/-- The extension registers, a request arrives and goes all the way. -/
def onePost : List Action :=
  [.start ⟨"a", "a", 7, ["a"], []⟩,
    .setTables ⟨OrdMap.empty.insert "a" "a", OrdMap.empty.insert "a" 7, [], []⟩,
    .arrive 0 ⟨"POST", "/a/x", none, [("user-agent", [99])], [1, 2]⟩,
    .request 0 .ingest, .request 0 .findRoute, .request 0 .findHandle, .request 0 .cloneConfig,
    .request 0 (.reserve 1),
    .request 0 .send, .link 7 .write,
    .link 7 (.print (toJson (ExtMsg.result 1 ⟨201, .empty, "ok"⟩
      [⟨"a.pushed", ""⟩, ⟨"b.pushed", ""⟩])).render),
    .link 7 .readLine, .link 7 .sendResult, .request 0 .receive, .request 0 .respond]

/-- The response of an answered request. -/
def Stage.response? : Stage → Option Response
  | .answered response => some response
  | _ => none

theorem webhooks_sound_one_post :
    (∀ j : Json, j.Fits → pushing.read j.render = some j) ∧
      ∃ s, Reaches Starts (step pushing) (fun _ _ => True) s ∧
        (s.requests.get? 0).bind (fun q => q.stage.response?) = some
          ⟨201, OrdMap.empty.insert "content-type" (asBytes "text/plain; charset=utf-8"), "ok"⟩ ∧
        s.fanned = [⟨7, some 0, [⟨"a.pushed", ""⟩]⟩] ∧ Sound pushing s := by
  have ran : (exec (guarded (fun _ _ => True) (step pushing)) started onePost).map
      (fun s => ((s.requests.get? 0).bind (fun q => q.stage.response?), s.fanned)) = some
        (some ⟨201, OrdMap.empty.insert "content-type" (asBytes "text/plain; charset=utf-8"), "ok"⟩,
          [⟨7, some 0, [⟨"a.pushed", ""⟩]⟩]) := by decide +kernel
  obtain ⟨s, hs, found⟩ := Option.map_eq_some_iff.mp ran
  obtain ⟨response, fanned⟩ := Prod.mk.inj found
  have run : Reaches Starts (step pushing) (fun _ _ => True) s :=
    reaches_of_exec onePost (.start ⟨rfl, rfl, rfl, rfl, rfl⟩) hs
  exact ⟨Json.read_render, s, run, response, fanned, webhooks_sound pushing Json.read_render s run⟩

end Whdr.Ingest
